import Fabric.Proofs.Undo
import Mathlib.Data.List.Induction
/-!
Rebuilding. A netlist records what is bound: for each placed cell one bind of a site, and for each
entry of a wire-set one bind of a wire, or of the pip that drives it. Carried out in any order on a
fresh layout and the cleared netlist, these binds lead back to every reachable flow
(`Flow.Reachable.rebuild`). The induction is on the order from its end: the last bind of any order
can be taken back first.
-/

namespace Fabric

namespace Netlist

/-- The netlist with all cells taken off their sites and all wire-sets empty. -/
def cleared (m : Netlist) : Netlist where
  cells := m.cells.map fun x => { x with site := none, strength := .none }
  nets := m.nets.map fun x => { x with wires := ∅ }
  cell_ids := m.cell_ids.map fun _ => rfl
  net_ids := m.net_ids.map fun _ => rfl

/-- The bind of a cell to its site, if it has one. -/
def placement (e : Cell × Nat) : List Operation :=
  (e.1.site.map fun s => Operation.bindSite s (.ofIndex e.2) e.1.strength).toList

/-- The binds of the wires that a net uses. -/
def routing (e : Net × Nat) : List Operation :=
  e.1.wires.entries.map fun (w, u) => u.rebind w (.ofIndex e.2)

/-- The binds that a netlist records: one for each placed cell, and one for each entry of a
wire-set. -/
def recorded (m : Netlist) : List Operation :=
  m.cells.zipIdx.flatMap placement ++ m.nets.zipIdx.flatMap routing

theorem mem_recorded {m : Netlist} (tail : m.TailBlank) {o : Operation} : o ∈ m.recorded ↔
    (∃ s c x, m.cell? c = some x ∧ x.site = some s ∧ o = .bindSite s c x.strength) ∨
    ∃ w n x u, m.net? n = some x ∧ x.wires.get? w = some u ∧ o = u.rebind w n := by
  rw [recorded, List.mem_append]
  refine or_congr ?_ ?_
  · simp only [List.mem_flatMap, placement, Option.mem_toList, Option.map_eq_some_iff]
    constructor
    · rintro ⟨⟨x, i⟩, hi, s, hs, rfl⟩
      obtain ⟨_, cell⟩ := tail.cell?_ofIndex (List.mem_zipIdx_iff_getElem?.mp hi) hs
      exact ⟨s, .ofIndex i, x, cell, hs, rfl⟩
    · rintro ⟨s, c, x, hx, hs, rfl⟩
      refine ⟨(x, c.index), List.mem_zipIdx_iff_getElem?.mpr hx, s, hs, ?_⟩
      rw [Handle.ofIndex_index]
  · simp only [List.mem_flatMap, routing, List.mem_map]
    constructor
    · rintro ⟨⟨x, i⟩, hi, ⟨w, u⟩, hu, rfl⟩
      have hu := (x.wires.mem_entries_iff w u).mp hu
      obtain ⟨_, net⟩ := tail.net?_ofIndex (List.mem_zipIdx_iff_getElem?.mp hi) hu
      exact ⟨w, .ofIndex i, x, u, net, hu, rfl⟩
    · rintro ⟨w, n, x, u, hx, hu, rfl⟩
      refine ⟨(x, n.index), List.mem_zipIdx_iff_getElem?.mpr hx, (w, u), ?_, ?_⟩
      · exact (x.wires.mem_entries_iff w u).mpr hu
      · rw [Handle.ofIndex_index]

/-- A netlist that records no bind is cleared, unless an unplaced cell still has a strength. -/
theorem cleared_of_recorded_eq_nil {m : Netlist} (nothing : m.recorded = [])
    (unplaced : ∀ x ∈ m.cells, x.site = none → x.strength = .none) : m.cleared = m := by
  obtain ⟨placements, routes⟩ := List.append_eq_nil_iff.mp nothing
  have cells : m.cells.map (fun x => { x with site := none, strength := .none }) = m.cells := by
    refine (List.map_congr_left ?_).trans (List.map_id _)
    intro x hx
    obtain ⟨i, hi⟩ := List.mem_iff_getElem?.mp hx
    have none := List.flatMap_eq_nil_iff.mp placements (x, i) (List.mem_zipIdx_iff_getElem?.mpr hi)
    have free : x.site = Option.none := by simpa [placement] using none
    have bare := unplaced x hx free
    rw [← free, ← bare]
    rfl
  have nets : m.nets.map (fun x => { x with wires := ∅ }) = m.nets := by
    refine (List.map_congr_left ?_).trans (List.map_id _)
    intro x hx
    obtain ⟨i, hi⟩ := List.mem_iff_getElem?.mp hx
    have none := List.flatMap_eq_nil_iff.mp routes (x, i) (List.mem_zipIdx_iff_getElem?.mpr hi)
    have entries : x.wires.entries = [] := by simpa [routing] using none
    have unused : x.wires = ∅ := SortedMap.ext fun w => by rw [SortedMap.get?, entries]; rfl
    rw [← unused]
    rfl
  exact Netlist.ext cells nets

@[simp] theorem siteOf?_cleared (m : Netlist) (c : CellRef) : m.cleared.siteOf? c = none := by
  simp only [siteOf?, cell?, cleared, List.getElem?_map]
  cases m.cells[c.index]? <;> rfl

@[simp] theorem use?_cleared (m : Netlist) (n : NetRef) (w : Wire) :
    m.cleared.use? n w = none := by
  simp only [use?, net?, cleared, List.getElem?_map]
  cases m.nets[n.index]? <;> rfl

/-! ## One bind less -/

/-- When an element of a table changes so that it gives one thing less, so does the table. -/
theorem flatMap_zipIdx_set_perm {α γ : Type} {g : α × Nat → List γ} {a b : α} {e : γ}
    {table : List α} {i : Nat} (h : table[i]? = some a) (k : Nat)
    (less : (g (a, k + i)).Perm (e :: g (b, k + i))) :
    ((table.zipIdx k).flatMap g).Perm (e :: ((table.set i b).zipIdx k).flatMap g) := by
  induction table generalizing i k with
  | nil => cases h
  | cons c table ih =>
    cases i with
    | zero =>
      cases h
      exact less.append_right _
    | succ i =>
      have rest := ih h (k + 1) (by rwa [Nat.add_right_comm])
      exact (rest.append_left _).trans List.perm_middle

theorem recorded_setCell {m : Netlist} {c : CellRef} {x : Cell} {s : Site}
    (cell : m.cell? c = some x) (placed : x.site = some s) :
    m.recorded.Perm (.bindSite s c x.strength ::
      (m.setCell c { x with site := none, strength := .none }).recorded) := by
  have less : (placement (x, 0 + c.index)).Perm (.bindSite s c x.strength ::
      placement ({ x with site := none, strength := .none }, 0 + c.index)) := by
    simp [placement, placed]
  rw [recorded, recorded, cells_setCell cell { x with site := none, strength := .none } rfl]
  exact (flatMap_zipIdx_set_perm cell 0 less).append_right _

theorem recorded_setNet {m : Netlist} {n : NetRef} {x : Net} {w : Wire} {u : WireUse}
    (net : m.net? n = some x) (listed : x.wires.get? w = some u) :
    m.recorded.Perm (u.rebind w n ::
      (m.setNet n { x with wires := x.wires.erase w }).recorded) := by
  have less : (routing (x, 0 + n.index)).Perm (u.rebind w n ::
      routing ({ x with wires := x.wires.erase w }, 0 + n.index)) := by
    have entries := (SortedMap.entries_perm_erase listed).map fun (w, u) => u.rebind w n
    simpa [routing] using entries
  rw [recorded, recorded, nets_setNet net { x with wires := x.wires.erase w } rfl]
  exact ((flatMap_zipIdx_set_perm net 0 less).append_left _).trans List.perm_middle

theorem cleared_setCell {m : Netlist} {c : CellRef} {x : Cell} (cell : m.cell? c = some x) :
    (m.setCell c { x with site := none, strength := .none }).cleared = m.cleared := by
  have table := cells_setCell cell { x with site := none, strength := .none } rfl
  exact Netlist.ext ((congrArg (List.map _) table).trans (map_set_eq_map cell rfl)) rfl

theorem cleared_setNet {m : Netlist} {n : NetRef} {x : Net} (net : m.net? n = some x)
    (wires : SortedMap Wire WireUse) :
    (m.setNet n { x with wires }).cleared = m.cleared := by
  have table := nets_setNet net { x with wires } rfl
  exact Netlist.ext rfl ((congrArg (List.map _) table).trans (map_set_eq_map net rfl))

end Netlist

variable {β : Type} [BucketKey β] {d : Device β}

theorem Ledger.consistent_cleared (d : Device β) (m : Netlist) :
    (⟨∅, m.cleared⟩ : Ledger).Consistent d where
  site s c := by
    rw [Netlist.siteOf?_cleared]
    constructor <;> intro h <;> cases h
  wire w n := by
    simp only [Netlist.use?_cleared]
    constructor
    · intro h
      cases h
    · rintro ⟨u, hu⟩
      cases hu
  pip p n := by
    simp only [Netlist.driver?, Netlist.use?_cleared]
    constructor
    · intro h
      cases h
    · rintro ⟨w, _, hw⟩
      cases hw
  driver := by simp [Netlist.driver?]
  unplaced := by simp [Netlist.cleared]

/-! ## Wires in direct use -/

/-- A wire that a net uses without a driver is a wire of the device. -/
def Netlist.DirectInside (d : Device β) (m : Netlist) : Prop :=
  ∀ n w u, m.use? n w = some u → u.driver = none → d.hasWire w = true

namespace Netlist.DirectInside

variable {l l' : Ledger}

theorem take (h : l.netlist.DirectInside d) {n : NetRef} {x : Net} (net : l.netlist.net? n = some x)
    {w : Wire} {u : WireUse} (inside : u.driver = none → d.hasWire w = true) :
    (l.take n x w u).netlist.DirectInside d := by
  intro n' w' u' hu direct
  rw [Ledger.use?_take l net] at hu
  split at hu
  next e =>
    cases hu
    exact e.2 ▸ inside direct
  · exact h n' w' u' hu direct

theorem release (h : l.netlist.DirectInside d) {n : NetRef} {x : Net}
    (net : l.netlist.net? n = some x) (w : Wire) (driver : Option Pip) :
    (l.release n x w driver).netlist.DirectInside d := by
  intro n' w' u' hu direct
  rw [Ledger.use?_release l net] at hu
  split at hu
  · cases hu
  · exact h n' w' u' hu direct

/-- Only a bind of the wire itself makes a direct use, and it asks the device. -/
theorem effect {o : Operation} {reply : Reply} {changes : List Change}
    (h : l.netlist.DirectInside d) (he : Effect d l o reply changes l') :
    l'.netlist.DirectInside d := by
  cases he with
  | addCell name type => exact h
  | addNet name =>
    intro n w u hu
    rw [Netlist.use?_addNet] at hu
    exact h n w u hu
  | bindSite inside can strength => exact h
  | unbindSite can => exact h
  | bindWire inside can strength => exact h.take can.net fun _ => inside
  | unbindWire can => exact h.release can.net _ _
  | bindPip target can strength => exact h.take can.net nofun
  | unbindPip target can => exact h.release can.net _ _

end Netlist.DirectInside

namespace Flow

variable {f : Flow β}

theorem Reachable.directInside (h : Reachable d f) : f.netlist.DirectInside d :=
  h.invariant_of_effect (P := fun l => l.netlist.DirectInside d) nofun fun hl he => hl.effect he

/-! ## Any order -/

/-- Each bind that a reachable flow records may be the last one: there is a reachable flow that
records the others, and there the bind leads back. -/
theorem Reachable.exists_before (h : Reachable d f) {o : Operation} (ho : o ∈ f.netlist.recorded) :
    ∃ g, Reachable d g ∧ g.netlist.cleared = f.netlist.cleared ∧
      f.netlist.recorded.Perm (o :: g.netlist.recorded) ∧
      ∃ changes, Effect d g.ledger o .done changes f.ledger := by
  rcases (Netlist.mem_recorded h.built.tail).mp ho with
    ⟨s, c, x, cell, placed, rfl⟩ | ⟨w, n, x, u, net, listed, rfl⟩
  · have owned : f.layout.owners.site? s = some c :=
      (h.consistent.site s c).mpr (Netlist.siteOf?_eq_some.mpr ⟨x, cell, placed⟩)
    have can : f.ledger.CanUnbindSite s c x := ⟨h.reached.notNull.site s c owned, owned, cell⟩
    have before := h.step (.unbindSite s)
    rw [perform_of_effect (.unbindSite can)] at before
    refine ⟨_, before, Netlist.cleared_setCell cell, Netlist.recorded_setCell cell placed,
      [.site s], ?_⟩
    have back := Effect.bindSite (h.reachedOn.sitesInside s c owned) can.back x.strength
    rw [Ledger.place_vacate can placed] at back
    exact back
  · have owned : f.layout.owners.wire? w = some n :=
      (h.consistent.wire w n).mpr ⟨u, Netlist.use?_eq_some.mpr ⟨x, net, listed⟩⟩
    have can : f.ledger.CanUnbindWire w n x u :=
      ⟨h.reached.notNull.wire w n owned, owned, net, listed⟩
    have before := h.step (.unbindWire w)
    rw [perform_of_effect (.unbindWire can)] at before
    have netlist := f.ledger.netlist_release (n := n) (w := w) x u.driver
    refine ⟨_, before, ?_, ?_, ?_⟩
    · exact (congrArg Netlist.cleared netlist).trans (Netlist.cleared_setNet net _)
    · show f.netlist.recorded.Perm (_ :: (f.ledger.release n x w u.driver).netlist.recorded)
      rw [netlist]
      exact Netlist.recorded_setNet net listed
    · have inside := h.directInside n w u (Netlist.use?_eq_some.mpr ⟨x, net, listed⟩)
      exact h.consistent.effect_rebind h.reached.notNull can inside

/-- Every reachable flow is rebuilt, in owners and netlist, by the binds that its netlist records.
They may come in any order, and none is refused on a fresh layout and the cleared netlist. -/
theorem Reachable.rebuild (h : Reachable d f) {names : Interner} {watched : Bool} {l : Layout β}
    (hl : Layout.ofDevice d names watched = .ok l) {os : List Operation}
    (ho : os.Perm f.netlist.recorded) :
    (∀ a ∈ (⟨l, f.netlist.cleared⟩ : Flow β).answers os, a = .ok .done) ∧
    ((⟨l, f.netlist.cleared⟩ : Flow β).run os).ledger = f.ledger := by
  induction os using List.reverseRecOn generalizing f with
  | nil =>
    have cleared : f.netlist.cleared = f.netlist :=
      Netlist.cleared_of_recorded_eq_nil ho.nil_eq.symm h.consistent.unplaced
    refine ⟨nofun, ?_⟩
    rw [Flow.run, ledger, (Layout.eq_of_ofDevice hl).2.1]
    exact (Ledger.consistent_cleared d f.netlist).ext h.consistent cleared
  | append_singleton os o ih =>
    obtain ⟨g, hg, cleared, less, changes, he⟩ :=
      h.exists_before (ho.subset (List.mem_append_right os (List.mem_singleton_self o)))
    have rest : os.Perm g.netlist.recorded :=
      ((List.perm_append_singleton o os).symm.trans (ho.trans less)).cons_inv
    obtain ⟨accepted, ledger⟩ := ih hg rest
    rw [cleared] at accepted ledger
    have device : ((⟨l, f.netlist.cleared⟩ : Flow β).run os).layout.device = d :=
      (device_run _ os).trans (Layout.eq_of_ofDevice hl).1
    have last := perform_of_effect (f := (⟨l, f.netlist.cleared⟩ : Flow β).run os)
      (device.symm ▸ ledger.symm ▸ he)
    rw [answers_append, run_append]
    refine ⟨?_, ?_⟩
    · intro a ha
      rcases List.mem_append.mp ha with ha | ha
      · exact accepted a ha
      · rw [answers, last] at ha
        exact List.mem_singleton.mp ha
    · rw [Flow.run, last]
      rfl

/-- The sample chip with a history: a refused bind, a pip over a wire in use, and a released cell
placed again. -/
def routed : Flow Symbol :=
  sample.run [.addCell ⟨0⟩ ⟨1⟩, .addNet ⟨2⟩, .bindSite ⟨0⟩ ⟨0⟩ .weak, .bindWire ⟨1⟩ ⟨0⟩ .weak,
    .bindSite ⟨0⟩ ⟨0⟩ .user, .bindPip ⟨0⟩ ⟨0⟩ .strong, .unbindSite ⟨0⟩, .bindWire ⟨2⟩ ⟨0⟩ .user,
    .bindSite ⟨0⟩ ⟨0⟩ .fixed]

/-- The binds that it ends with, last ones first. -/
def rerouting : List Operation :=
  [.bindWire ⟨2⟩ ⟨0⟩ .user, .bindSite ⟨0⟩ ⟨0⟩ .fixed, .bindPip ⟨0⟩ ⟨0⟩ .strong]

/-- On the sample chip: a cell, a driven wire and a wire in direct use, rebuilt in another order. -/
theorem rebuild_sample :
    Reachable Chip.sample.chip.device routed ∧
    Layout.ofDevice Chip.sample.chip.device Chip.sample.names true = .ok sample.layout ∧
    rerouting.Perm routed.netlist.recorded ∧
    (∀ a ∈ (⟨sample.layout, routed.netlist.cleared⟩ : Flow Symbol).answers rerouting,
      a = .ok .done) ∧
    ((⟨sample.layout, routed.netlist.cleared⟩ : Flow Symbol).run rerouting).ledger =
      routed.ledger := by
  have order : rerouting.Perm routed.netlist.recorded := by decide
  exact ⟨sample_reachable _, ofDevice_sample, order,
    (sample_reachable _).rebuild ofDevice_sample order⟩

end Flow

end Fabric
