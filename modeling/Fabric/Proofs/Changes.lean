import Fabric.Proofs.Consistency
/-!
The log. On one netlist a bind or a release that is carried out logs exactly the resources that are
bound otherwise afterwards, each once, and changes no cell but the one on the logged site. A site or
a pip changes between bound and free each time that it is logged, so the log of a whole run tells by
counting which of them are bound.
-/

namespace Fabric

/-- Additions make new cells and nets, and bind or free nothing. -/
def Operation.isAddition : Operation → Bool
  | addCell .. | addNet .. => true
  | _ => false

namespace Ledger

/-! ## Bound otherwise -/

/-- The cell on a site, and the strength of its placement. -/
def placed? (l : Ledger) (s : Site) : Option (CellRef × Option Strength) :=
  (l.owners.site? s).map fun c => (c, (l.netlist.cell? c).map (·.strength))

/-- Whether a resource is bound otherwise than in the second ledger: a site to another cell or in
another strength, a wire to another net or with another use in some net, a pip to another net. -/
def Differs (l l' : Ledger) : Change → Prop
  | .site s => l.placed? s ≠ l'.placed? s
  | .wire w => l.owners.wire? w ≠ l'.owners.wire? w ∨ ∃ n, l.netlist.use? n w ≠ l'.netlist.use? n w
  | .pip p => l.owners.pip? p ≠ l'.owners.pip? p

/-- The changes are the resources that are bound otherwise, each once. Only cells that are put on a
logged site or taken off it change, and only uses of logged wires. -/
structure Logs (l l' : Ledger) (changes : List Change) : Prop where
  nodup : changes.Nodup
  mem_iff : ∀ y, y ∈ changes ↔ l.Differs l' y
  cell : ∀ c, l.netlist.cell? c ≠ l'.netlist.cell? c →
    ∃ s, .site s ∈ changes ∧ (l.owners.site? s = some c ∨ l'.owners.site? s = some c)
  use : ∀ n w, l.netlist.use? n w ≠ l'.netlist.use? n w → .wire w ∈ changes

theorem Logs.of_differs {l l' : Ledger} {changes : List Change} (nodup : changes.Nodup)
    (mem_iff : ∀ y, y ∈ changes ↔ l.Differs l' y)
    (cell : ∀ c, l.netlist.cell? c ≠ l'.netlist.cell? c →
      ∃ s, .site s ∈ changes ∧ (l.owners.site? s = some c ∨ l'.owners.site? s = some c)) :
    l.Logs l' changes where
  nodup := nodup
  mem_iff := mem_iff
  cell := cell
  use n w hu := (mem_iff (.wire w)).mpr (.inr ⟨n, hu⟩)

/-! ## What the moves make otherwise -/

section
variable {β : Type} [BucketKey β] {d : Device β} {l l' : Ledger}

/-- A cell is put on a site or taken off it. -/
theorem Consistent.logs_of_setCell (h : l.Consistent d) {s : Site} {c : CellRef} {x y : Cell}
    (cell : l.netlist.cell? c = some y) (elsewhere : ∀ s', s' ≠ s → l.netlist.siteOf? c ≠ some s')
    (netlist : l'.netlist = l.netlist.setCell c x)
    (moved : l.owners.site? s = none ∧ l'.owners.site? s = some c ∨
      l.owners.site? s = some c ∧ l'.owners.site? s = none)
    (sites : ∀ s', s' ≠ s → l'.owners.site? s' = l.owners.site? s')
    (wires : ∀ w, l'.owners.wire? w = l.owners.wire? w)
    (pips : ∀ p, l'.owners.pip? p = l.owners.pip? p) : l.Logs l' [.site s] := by
  have cells : ∀ c', c' ≠ c → l'.netlist.cell? c' = l.netlist.cell? c' := by
    intro c' hc
    rw [netlist, Netlist.cell?_setCell cell, if_neg hc]
  have others : ∀ s', s' ≠ s → l'.placed? s' = l.placed? s' := by
    intro s' hs
    rw [placed?, placed?, sites s' hs]
    cases owned : l.owners.site? s' with
    | none => rfl
    | some c' =>
      have hc : c' ≠ c := by
        rintro rfl
        exact elsewhere s' hs ((h.site s' c').mp owned)
      rw [Option.map_some, Option.map_some, cells c' hc]
  refine .of_differs (by simp) ?_ ?_
  · intro y
    rw [List.mem_singleton]
    cases y with
    | site s' =>
      by_cases hs : s' = s
      · subst hs
        rcases moved with ⟨before, after⟩ | ⟨before, after⟩ <;>
          simp [Differs, placed?, before, after]
      · simp [Differs, others s' hs, hs]
    | wire w => simp [Differs, wires, netlist]
    | pip p => simp [Differs, pips]
  · intro c' hc
    refine ⟨s, List.mem_singleton_self _, ?_⟩
    by_cases e : c' = c
    · exact e ▸ moved.symm.imp And.left And.right
    · exact absurd (cells c' e).symm hc

/-- The use of a wire changes, and with it the pip that drives the wire before or afterwards. -/
theorem logs_of_setNet {w : Wire} {n : NetRef} {x y : Net} {driver : Option Pip}
    {changes : List Change} (net : l.netlist.net? n = some y)
    (netlist : l'.netlist = l.netlist.setNet n x)
    (uses : ∀ w', w' ≠ w → x.wires.get? w' = y.wires.get? w')
    (wire : l.Differs l' (.wire w)) (wires : ∀ w', w' ≠ w → l'.owners.wire? w' = l.owners.wire? w')
    (pips : ∀ p, l.Differs l' (.pip p) ↔ driver = some p)
    (sites : ∀ s, l'.owners.site? s = l.owners.site? s) (nodup : changes.Nodup)
    (mem : ∀ y, y ∈ changes ↔ y = .wire w ∨ ∃ p, driver = some p ∧ y = .pip p) :
    l.Logs l' changes := by
  have cells : ∀ c, l'.netlist.cell? c = l.netlist.cell? c := by
    intro c
    rw [netlist, Netlist.cell?_setNet]
  have others : ∀ w', w' ≠ w → ∀ n', l'.netlist.use? n' w' = l.netlist.use? n' w' := by
    intro w' hw n'
    rw [netlist, Netlist.use?_setNet net]
    by_cases hn : n' = n
    · rw [if_pos hn, uses w' hw, hn, Netlist.use?_of_net? net]
    · rw [if_neg hn]
  refine .of_differs nodup ?_ fun c hc => absurd (cells c).symm hc
  intro y
  rw [mem]
  cases y with
  | site s => simp [Differs, placed?, sites, cells]
  | wire w' =>
    by_cases hw : w' = w
    · simp [hw, wire]
    · simp [hw, Differs, wires w' hw, others w' hw]
  | pip p => simp [pips]

theorem logs_take {w : Wire} {n : NetRef} {x : Net} {u : WireUse} {changes : List Change}
    (net : l.netlist.net? n = some x) (new : l.netlist.use? n w ≠ some u)
    (free : ∀ p, u.driver = some p → l.owners.pip? p = none) (nodup : changes.Nodup)
    (mem : ∀ y, y ∈ changes ↔ y = .wire w ∨ ∃ p, u.driver = some p ∧ y = .pip p) :
    l.Logs (l.take n x w u) changes := by
  refine logs_of_setNet net (l.netlist_take x u) ?_ (.inr ⟨n, ?_⟩) ?_ ?_ (l.site?_take x u) nodup
    mem
  · intro w' hw
    simp [SortedMap.get?_insert, hw]
  · rw [use?_take l net, if_pos ⟨rfl, rfl⟩]
    exact new
  · intro w' hw
    simp [hw]
  · intro p
    by_cases hp : u.driver = some p
    · simp [Differs, hp, free p hp]
    · simp [Differs, hp]

theorem logs_release {w : Wire} {n : NetRef} {x : Net} {driver : Option Pip}
    {changes : List Change} (net : l.netlist.net? n = some x) (owned : l.owners.wire? w = some n)
    (bound : ∀ p, driver = some p → l.owners.pip? p = some n) (nodup : changes.Nodup)
    (mem : ∀ y, y ∈ changes ↔ y = .wire w ∨ ∃ p, driver = some p ∧ y = .pip p) :
    l.Logs (l.release n x w driver) changes := by
  refine logs_of_setNet net (l.netlist_release x driver) ?_ (.inl ?_) ?_ ?_
    (l.site?_release x driver) nodup mem
  · intro w' hw
    simp [SortedMap.get?_erase, hw]
  · simp [owned]
  · intro w' hw
    simp [hw]
  · intro p
    by_cases hp : driver = some p
    · simp [Differs, hp, bound p hp]
    · simp [Differs, hp]

/-- One step: what is carried out logs exactly what it makes otherwise. -/
theorem Consistent.logs (h : l.Consistent d) {o : Operation} {reply : Reply}
    {changes : List Change} (he : Effect d l o reply changes l') (ho : o.isAddition = false) :
    l.Logs l' changes := by
  cases he with
  | addCell name type => cases ho
  | addNet name => cases ho
  | @bindSite s c x inside can strength =>
    have unplaced : l.netlist.siteOf? c = none := by
      simp [Netlist.siteOf?, can.cell, can.unplaced]
    refine h.logs_of_setCell can.cell (by simp [unplaced]) rfl (.inl ⟨can.free, by simp⟩) ?_
      (fun _ => rfl) fun _ => rfl
    intro s' hs
    simp [hs]
  | @unbindSite s c x can =>
    have placed : l.netlist.siteOf? c = some s := (h.site s c).mp can.owned
    refine h.logs_of_setCell can.cell ?_ rfl (.inr ⟨can.owned, by simp⟩) ?_ (fun _ => rfl)
      fun _ => rfl
    · intro s' hs
      rw [placed]
      exact fun e => hs (Option.some.inj e).symm
    · intro s' hs
      simp [hs]
  | @bindWire w n x inside can strength =>
    have unused : l.netlist.use? n w = none := h.use?_eq_none (by simp [can.free])
    exact logs_take can.net (by simp [unused]) (by simp) (by simp) (by simp)
  | @unbindWire w n x u can =>
    refine logs_release can.net can.owned (fun _ hp => (h.driver_bound can hp).2) ?_ ?_
    · cases u.driver <;> simp
    · intro y
      cases u.driver <;> simp
  | @bindPip p w n x target can strength =>
    -- The net may use the wire already, but not with this pip, which would be bound then.
    have new : l.netlist.use? n w ≠ some ⟨some p, strength⟩ := by
      intro hu
      have driven : l.netlist.driver? n w = some p := by
        rw [Netlist.driver?, hu]
        rfl
      cases can.free.symm.trans ((h.pip p n).mpr ⟨w, target, driven⟩)
    refine logs_take can.net new ?_ (by simp) (by simp [or_comm])
    rintro q ⟨⟩
    exact can.free
  | @unbindPip p w n x target can =>
    refine logs_release can.net can.target_owned ?_ (by simp) (by simp [or_comm])
    rintro q ⟨⟩
    exact can.owned

end

end Ledger

/-! ## Bound and free by turns -/

/-- Whether a resource is bound. -/
def Owners.binds (o : Owners) : Change → Bool
  | .site s => (o.site? s).isSome
  | .wire w => (o.wire? w).isSome
  | .pip p => (o.pip? p).isSome

theorem Owners.binds_empty (y : Change) : (∅ : Owners).binds y = false := by
  cases y <;> rfl

variable {β : Type} [BucketKey β] {d : Device β}

theorem Effect.nodup {l l' : Ledger} {o : Operation} {reply : Reply} {changes : List Change}
    (he : Effect d l o reply changes l') : changes.Nodup := by
  cases he with
  | @unbindWire w n x u can => cases u.driver <;> simp
  | _ => simp

namespace Ledger

section
variable {l l' : Ledger} {s : Site} {p : Pip} {n : NetRef} {w : Wire} {y : Change}

theorem binds_place (free : l.owners.site? s = none) (c : CellRef) (x : Cell)
    (strength : Strength) :
    (l.place s c x strength).owners.binds y = (l.owners.binds y ^^ decide (y = .site s)) := by
  cases y with
  | site s' => by_cases hs : s' = s <;> simp [Owners.binds, hs, free]
  | wire w => simp [Owners.binds]
  | pip p => simp [Owners.binds]

theorem binds_vacate {c : CellRef} (owned : l.owners.site? s = some c) (x : Cell) :
    (l.vacate s c x).owners.binds y = (l.owners.binds y ^^ decide (y = .site s)) := by
  cases y with
  | site s' => by_cases hs : s' = s <;> simp [Owners.binds, hs, owned]
  | wire w => simp [Owners.binds]
  | pip p => simp [Owners.binds]

theorem binds_take {u : WireUse} (free : ∀ p, u.driver = some p → l.owners.pip? p = none) (x : Net)
    (hy : ∀ w, y ≠ .wire w) : (l.take n x w u).owners.binds y =
      (l.owners.binds y ^^ decide (u.driver.map Change.pip = some y)) := by
  cases y with
  | site s => simp [Owners.binds]
  | wire w => exact absurd rfl (hy w)
  | pip p =>
    by_cases hp : u.driver = some p
    · simp [Owners.binds, hp, free p hp]
    · simp [Owners.binds, hp]

theorem binds_release {driver : Option Pip}
    (bound : ∀ p, driver = some p → l.owners.pip? p = some n) (x : Net) (hy : ∀ w, y ≠ .wire w) :
    (l.release n x w driver).owners.binds y =
      (l.owners.binds y ^^ decide (driver.map Change.pip = some y)) := by
  cases y with
  | site s => simp [Owners.binds]
  | wire w => exact absurd rfl (hy w)
  | pip p =>
    by_cases hp : driver = some p
    · simp [Owners.binds, hp, bound p hp]
    · simp [Owners.binds, hp]

/-- One step: what is carried out binds the free sites and pips that it logs, and frees the bound
ones. A wire that gets a driver is logged and stays bound. -/
theorem Consistent.binds_effect (h : l.Consistent d) {o : Operation} {reply : Reply}
    {changes : List Change} (he : Effect d l o reply changes l') (hy : ∀ w, y ≠ .wire w) :
    l'.owners.binds y = (l.owners.binds y ^^ decide (y ∈ changes)) := by
  cases he with
  | addCell name type => simp
  | addNet name => simp
  | @bindSite s c x inside can strength => simp [binds_place can.free]
  | @unbindSite s c x can => simp [binds_vacate can.owned]
  | @bindWire w n x inside can strength => simp [binds_take, hy]
  | @unbindWire w n x u can =>
    rw [binds_release (fun _ hp => (h.driver_bound can hp).2) x hy]
    simp [hy]
  | @bindPip p w n x target can strength =>
    rw [binds_take (by simp [can.free]) x hy]
    simp [hy, eq_comm]
  | @unbindPip p w n x target can =>
    rw [binds_release (by simp [can.owned]) x hy]
    simp [hy, eq_comm]

end

end Ledger

/-- Logging a list without repetitions turns the parity of what is in it. -/
theorem Change.odd_count_append {log changes : List Change} (h : changes.Nodup) (y : Change) :
    decide ((log ++ changes).count y % 2 = 1) =
      (decide (log.count y % 2 = 1) ^^ decide (y ∈ changes)) := by
  rw [List.count_append, h.count]
  by_cases hy : y ∈ changes
  · by_cases odd : log.count y % 2 = 1
    · have even : (log.count y + 1) % 2 ≠ 1 := by omega
      simp [hy, odd, even]
    · have turned : (log.count y + 1) % 2 = 1 := by omega
      simp [hy, odd, turned]
  · simp [hy]

namespace Flow

variable {f : Flow β}

/-- Over a whole run: what is logged an odd number of times is bound, wires apart. -/
theorem Reachable.binds_eq (h : Reachable d f) {log : List Change} (hl : f.layout.log = some log)
    {y : Change} (hy : ∀ w, y ≠ .wire w) :
    f.layout.owners.binds y = decide (log.count y % 2 = 1) := by
  induction h generalizing log with
  | @fresh names watched l hd =>
    obtain ⟨_, owners, watch⟩ := Layout.eq_of_ofDevice hd
    have start : log = [] := by
      cases watched with
      | false => cases hl.symm.trans watch
      | true => exact Option.some.inj (hl.symm.trans watch)
    simp [owners, start, Owners.binds_empty]
  | @step f hf o ih =>
    -- The log of the step comes behind the log so far, and turns what it lists.
    rcases hf.perform_cases o with ⟨reply, changes, l, he⟩ | ⟨r, hr⟩
    · rw [perform_of_effect (hf.device_eq ▸ he)] at hl ⊢
      obtain ⟨before, hb, rfl⟩ := Option.map_eq_some_iff.mp hl
      rw [Change.odd_count_append he.nodup, ← ih hb]
      exact hf.consistent.binds_effect he hy
    · rw [hr] at hl ⊢
      exact ih hl

/-! ## Watched runs -/

/-- What the log of a flow says: of the next operation, which resources it binds otherwise, and of
all that were carried out, which sites and pips are bound. -/
structure Logged (f : Flow β) (log : List Change) : Prop where
  watched : f.layout.log = some log
  refused : ∀ o, (f.perform o).accepted = false → (f.perform o).state = f
  done : ∀ o, o.isAddition = false → (f.perform o).accepted = true →
    ∃ changes, (f.perform o).state.layout.log = some (log ++ changes) ∧
      f.ledger.Logs (f.perform o).state.ledger changes
  site : ∀ s, f.layout.siteFree s = false ↔ log.count (.site s) % 2 = 1
  pip : ∀ p, f.layout.pipFree p = false ↔ log.count (.pip p) % 2 = 1

theorem Reachable.logged (h : Reachable d f) {log : List Change} (hl : f.layout.log = some log) :
    f.Logged log where
  watched := hl
  refused o ho := by
    rcases h.perform_cases o with ⟨reply, changes, l, he⟩ | ⟨r, hr⟩
    · rw [perform_of_effect (h.device_eq ▸ he)] at ho
      cases ho
    · rw [hr]
      rfl
  done o hb ho := by
    obtain ⟨reply, changes, l, he⟩ := accepted_iff.mp ho
    rw [perform_of_effect he]
    refine ⟨changes, ?_, h.consistent.logs (h.device_eq ▸ he) hb⟩
    show f.layout.log.map (· ++ changes) = _
    rw [hl, Option.map_some]
  site s := by
    have hs : (f.layout.owners.site? s).isSome = decide (log.count (.site s) % 2 = 1) :=
      h.binds_eq hl (y := .site s) nofun
    rw [Layout.siteFree, Option.isNone_eq_false_iff, hs, decide_eq_true_iff]
  pip p := by
    have hp : (f.layout.owners.pip? p).isSome = decide (log.count (.pip p) % 2 = 1) :=
      h.binds_eq hl (y := .pip p) nofun
    rw [Layout.pipFree, Option.isNone_eq_false_iff, hp, decide_eq_true_iff]

/-- A run goes on with the log that it finds. -/
theorem log_run (f : Flow β) (os : List Operation) :
    ∃ changes, (f.run os).layout.log = f.layout.log.map (· ++ changes) := by
  induction os generalizing f with
  | nil => exact ⟨[], by simp [run]⟩
  | cons o os ih =>
    obtain ⟨l, now, state⟩ := state_eq_moved f o
    obtain ⟨later, hl⟩ := ih (f.moved l now)
    refine ⟨now ++ later, ?_⟩
    rw [run, state, hl]
    simp [moved, Function.comp_def]

/-- A watched layout of any device keeps an exact log through every run on a new netlist. -/
theorem run_logged {names : Interner} {l : Layout β} (hl : Layout.ofDevice d names true = .ok l)
    (os : List Operation) : ∃ log, ((⟨l, ∅⟩ : Flow β).run os).Logged log := by
  have h : Reachable d ((⟨l, ∅⟩ : Flow β).run os) := (Reachable.fresh hl).run os
  obtain ⟨log, hlog⟩ := log_run (⟨l, ∅⟩ : Flow β) os
  rw [(Layout.eq_of_ofDevice hl).2.2] at hlog
  exact ⟨log, h.logged hlog⟩

/-- On the sample chip: a pip over a wire in use, a refused bind, and the release of the wire. -/
theorem run_logged_sample :
    Layout.ofDevice Chip.sample.chip.device Chip.sample.names true = .ok sample.layout ∧
    (sample.run [.addNet ⟨2⟩, .bindWire ⟨1⟩ ⟨0⟩ .weak, .bindPip ⟨0⟩ ⟨0⟩ .strong,
      .bindWire ⟨1⟩ ⟨0⟩ .user, .unbindWire ⟨1⟩]).Logged
      [.wire ⟨1⟩, .pip ⟨0⟩, .wire ⟨1⟩, .wire ⟨1⟩, .pip ⟨0⟩] := by
  refine ⟨ofDevice_sample, ?_⟩
  obtain ⟨log, h⟩ := run_logged ofDevice_sample [.addNet ⟨2⟩, .bindWire ⟨1⟩ ⟨0⟩ .weak,
    .bindPip ⟨0⟩ ⟨0⟩ .strong, .bindWire ⟨1⟩ ⟨0⟩ .user, .unbindWire ⟨1⟩]
  cases h.watched
  exact h

end Flow

end Fabric
