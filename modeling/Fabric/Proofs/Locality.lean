import Fabric.Proofs.WireView
/-!
Locality. What happens to a wire depends on the operations on this wire alone, and what happens to
the sites on those that place cells (`Flow.Reachable.run_local`). The sites and the wires together
are all there is; so runs that look alike on each of them end alike, and operations that are about
different things may change places.
-/

namespace Fabric

variable {β : Type} [BucketKey β]

/-! ## Placement -/

/-- Two ledgers with the same cells and nets that agree on who owns which site. -/
structure Ledger.PlacedAlike (l l' : Ledger) : Prop where
  site : ∀ s, l.owners.site? s = l'.owners.site? s
  cells : l.netlist.cells = l'.netlist.cells
  nets : l.netlist.nets.map (·.name) = l'.netlist.nets.map (·.name)

namespace Ledger.PlacedAlike

variable {d : Device β} {l l' m m' : Ledger} {o : Operation} {reply reply' : Reply}
  {changes changes' : List Change}

theorem refl (l : Ledger) : PlacedAlike l l := ⟨fun _ => rfl, rfl, rfl⟩

theorem cell? (h : PlacedAlike l l') (c : CellRef) : l.netlist.cell? c = l'.netlist.cell? c := by
  rw [Netlist.cell?, Netlist.cell?, h.cells]

theorem cell (h : PlacedAlike l l') (c : CellRef) : l.netlist.cell c = l'.netlist.cell c := by
  rw [Netlist.cell, Netlist.cell, h.cell?, h.cells]

theorem bindSite_answer (h : PlacedAlike l l') (s : Site) (c : CellRef) (strength : Strength) :
    (l.bindSite s c strength).answer = (l'.bindSite s c strength).answer := by
  simp only [bindSite, h.site, h.cell]
  repeat' split
  all_goals rfl

theorem unbindSite_answer (h : PlacedAlike l l') (s : Site) :
    (l.unbindSite s).answer = (l'.unbindSite s).answer := by
  simp only [unbindSite, h.site, h.cell]
  repeat' split
  all_goals rfl

theorem answer {f g : Flow β} (hf : f.layout.device = d) (hg : g.layout.device = d)
    (h : PlacedAlike f.ledger g.ledger) (ho : (!o.isRouting) = true) :
    (f.perform o).answer = (g.perform o).answer := by
  cases o with
  | addCell name type =>
    have cells : f.netlist.cells = g.netlist.cells := h.cells
    show Except.ok (Reply.cell (.ofIndex f.netlist.cells.length)) = _
    rw [cells]
    rfl
  | addNet name =>
    have length : f.netlist.nets.length = g.netlist.nets.length := by
      simpa [Flow.ledger] using congrArg List.length h.nets
    show Except.ok (Reply.net (.ofIndex f.netlist.nets.length)) = _
    rw [length]
    rfl
  | bindSite s c strength =>
    simp only [Flow.perform, Flow.reply, Flow.bindSite, hf, hg]
    split
    · rfl
    · split
      · simp only [Flow.commit_answer, h.bindSite_answer]
      · rfl
  | unbindSite s =>
    simp only [Flow.perform, Flow.reply, Flow.unbindSite, Flow.commit_answer, h.unbindSite_answer]
  | _ => cases ho

theorem both (h : PlacedAlike l l') (ho : (!o.isRouting) = true)
    (he : Effect d l o reply changes m) (he' : Effect d l' o reply' changes' m') :
    PlacedAlike m m' := by
  cases he with
  | addCell name type =>
    cases he'
    refine ⟨h.site, ?_, h.nets⟩
    simp [Netlist.addCell, h.cells]
  | addNet name =>
    cases he'
    refine ⟨h.site, h.cells, ?_⟩
    simp [Netlist.addNet, h.nets]
  | @bindSite s c x inside can strength =>
    cases he' with
    | bindSite inside' can' =>
      cases can.cell.symm.trans ((h.cell? c).trans can'.cell)
      refine ⟨fun s' => ?_, ?_, h.nets⟩
      · rw [site?_place, site?_place, h.site]
      · show l.netlist.cells.set c.index _ = l'.netlist.cells.set c.index _
        rw [h.cells]
  | @unbindSite s c x can =>
    cases he' with
    | unbindSite can' =>
      cases can.owned.symm.trans ((h.site s).trans can'.owned)
      cases can.cell.symm.trans ((h.cell? c).trans can'.cell)
      refine ⟨fun s' => ?_, ?_, h.nets⟩
      · rw [site?_vacate, site?_vacate, h.site]
      · show l.netlist.cells.set c.index _ = l'.netlist.cells.set c.index _
        rw [h.cells]
  | _ => cases ho

theorem take_other (h : PlacedAlike l l') {n : NetRef} {x : Net} (net : l.netlist.net? n = some x)
    (w : Wire) (u : WireUse) : PlacedAlike (l.take n x w u) l' where
  site s := by rw [site?_take, h.site]
  cells := by rw [cells_take, h.cells]
  nets := by rw [names_take net, h.nets]

theorem release_other (h : PlacedAlike l l') {n : NetRef} {x : Net}
    (net : l.netlist.net? n = some x) (w : Wire) (driver : Option Pip) :
    PlacedAlike (l.release n x w driver) l' where
  site s := by rw [site?_release, h.site]
  cells := by rw [cells_release, h.cells]
  nets := by rw [names_release net, h.nets]

theorem other (h : PlacedAlike l l') (ho : (!o.isRouting) = false)
    (he : Effect d l o reply changes m) : PlacedAlike m l' := by
  cases he with
  | bindWire inside can strength => exact h.take_other can.net _ _
  | unbindWire can => exact h.release_other can.net _ _
  | bindPip target can strength => exact h.take_other can.net _ _
  | unbindPip target can => exact h.release_other can.net _ _
  | _ => cases ho

/-- What happens to sites and cells does not depend on the operations on wires and pips. -/
theorem view (d : Device β) : View d (!·.isRouting) PlacedAlike :=
  ⟨answer, both, fun _ => other⟩

end Ledger.PlacedAlike

/-! ## Everything -/

/-- Two netlists with the same cells and nets and the same uses of wires are the same. -/
theorem Netlist.eq_of_use? {m m' : Netlist} (tail : m.TailBlank) (tail' : m'.TailBlank)
    (cells : m.cells = m'.cells) (names : m.nets.map (·.name) = m'.nets.map (·.name))
    (uses : ∀ n w, m.use? n w = m'.use? n w) : m = m' := by
  have nets : m.nets = m'.nets := by
    apply List.ext_getElem?
    intro i
    have name : (m.nets[i]?).map (·.name) = (m'.nets[i]?).map (·.name) := by
      rw [← List.getElem?_map, ← List.getElem?_map, names]
    cases hx : m.nets[i]? with
    | none =>
      rw [hx] at name
      exact (Option.map_eq_none_iff.mp name.symm).symm
    | some x =>
      rw [hx] at name
      obtain ⟨x', hx', same⟩ := Option.map_eq_some_iff.mp name.symm
      have wires : x.wires = x'.wires := by
        by_cases lt : i < UInt32.size
        · have net : m.net? (.ofIndex i) = some x := by rw [net?, Handle.index_ofIndex lt, hx]
          have net' : m'.net? (.ofIndex i) = some x' := by rw [net?, Handle.index_ofIndex lt, hx']
          apply SortedMap.ext
          intro w
          rw [← use?_of_net? net, ← use?_of_net? net', uses]
        · rw [tail.nets i x hx (Nat.le_of_not_lt lt), tail'.nets i x' hx' (Nat.le_of_not_lt lt)]
      have id : x.id = x'.id := (m.net_ids i x hx).trans (m'.net_ids i x' hx').symm
      obtain ⟨id, name, wires⟩ := x
      obtain ⟨id', name', wires'⟩ := x'
      cases id
      cases same
      cases wires
      exact hx'.symm
  exact Netlist.ext cells nets

namespace Flow

variable {d : Device β} {f : Flow β}

/-- Two runs with the same operations on each wire and the same operations on sites, each in the
same order, end with the same owners and the same netlist. -/
theorem Reachable.run_eq_of_filter_eq (h : Reachable d f) {os os' : List Operation}
    (wires : ∀ w, os.filter (·.concerns d w) = os'.filter (·.concerns d w))
    (sites : os.filter (!·.isRouting) = os'.filter (!·.isRouting)) :
    (f.run os).ledger = (f.run os').ledger := by
  have use : ∀ n w, (f.run os).netlist.use? n w = (f.run os').netlist.use? n w := by
    intro n w
    have alike := ((Ledger.AlikeAt.view d w).run h h (.refl d w _) os).2
    have alike' := ((Ledger.AlikeAt.view d w).run h h (.refl d w _) os').2
    rw [wires w] at alike
    exact (alike.use n).trans (alike'.use n).symm
  have alike := ((Ledger.PlacedAlike.view d).run h h (.refl _) os).2
  have alike' := ((Ledger.PlacedAlike.view d).run h h (.refl _) os').2
  rw [sites] at alike
  have netlist : (f.run os).netlist = (f.run os').netlist :=
    Netlist.eq_of_use? (h.run os).built.tail (h.run os').built.tail
      (alike.cells.trans alike'.cells.symm) (alike.nets.trans alike'.nets.symm) use
  exact (h.run os).consistent.ext (h.run os').consistent netlist

end Flow

/-! ## Operations that commute -/

/-- The operations are about different wires, or one places a cell and the other binds or frees a
wire or a pip. -/
inductive Operation.Apart (d : Device β) : Operation → Operation → Prop
  | wires {o o' w w'} (wire : o.wire? d = some w) (wire' : o'.wire? d = some w') (ne : w ≠ w') :
      Apart d o o'
  | placing {o o'} (site : o.isPlacing = true) (wire : o'.isRouting = true) : Apart d o o'
  | routing {o o'} (wire : o.isRouting = true) (site : o'.isPlacing = true) : Apart d o o'

namespace Operation

variable {d : Device β} {o o' : Operation}

theorem Apart.symm (h : o.Apart d o') : o'.Apart d o := by
  cases h with
  | wires wire wire' ne => exact .wires wire' wire ne.symm
  | placing site wire => exact .routing wire site
  | routing wire site => exact .placing site wire

theorem concerns_of_wire? {w : Wire} (h : o.wire? d = some w) (v : Wire) :
    o.concerns d v = decide (w = v) := by
  cases o with
  | addCell | addNet => cases h
  | _ => simp [concerns, isAddition, h]

theorem concerns_of_isPlacing (h : o.isPlacing = true) (w : Wire) : o.concerns d w = false := by
  cases o with
  | bindSite | unbindSite => rfl
  | _ => cases h

theorem isRouting_of_wire? {w : Wire} (h : o.wire? d = some w) : o.isRouting = true := by
  cases o with
  | addCell | addNet | bindSite | unbindSite => cases h
  | _ => rfl

theorem isRouting_of_isPlacing (h : o.isPlacing = true) : o.isRouting = false := by
  cases o with
  | bindSite | unbindSite => rfl
  | _ => cases h

theorem Apart.concerns (h : o.Apart d o') (v : Wire) :
    o.concerns d v = false ∨ o'.concerns d v = false := by
  cases h with
  | @wires w w' wire wire' ne =>
    by_cases hv : w = v
    · right
      rw [concerns_of_wire? wire', decide_eq_false_iff_not]
      exact fun e => ne (hv.trans e.symm)
    · left
      rw [concerns_of_wire? wire, decide_eq_false_iff_not]
      exact hv
  | placing site wire => exact .inl (concerns_of_isPlacing site v)
  | routing wire site => exact .inr (concerns_of_isPlacing site v)

theorem Apart.isRouting (h : o.Apart d o') : (!o.isRouting) = false ∨ (!o'.isRouting) = false := by
  cases h with
  | wires wire wire' ne => exact .inl (by rw [isRouting_of_wire? wire]; rfl)
  | placing site wire => exact .inr (by rw [wire]; rfl)
  | routing wire site => exact .inl (by rw [wire]; rfl)

/-- Two neighbours of which at most one counts may change places. -/
theorem filter_swap {keep : Operation → Bool} (h : keep o = false ∨ keep o' = false) :
    [o, o'].filter keep = [o', o].filter keep := by
  rcases h with h | h
  · simp [List.filter_cons, h]
  · simp [List.filter_cons, h]

end Operation

/-- An operation that does not show leaves the answers as they are. -/
theorem View.answer_skip {d : Device β} {keep : Operation → Bool} {alike : Ledger → Ledger → Prop}
    {f : Flow β} (v : View d keep alike) (h : f.Reachable d) (refl : alike f.ledger f.ledger)
    {o o' : Operation} (ho : keep o = false) (ho' : keep o' = true) :
    ((f.perform o).state.perform o').answer = (f.perform o').answer :=
  v.answer (h.step o).device_eq h.device_eq (v.skip h refl ho) ho'

namespace Flow

variable {d : Device β} {f g : Flow β} {o o' : Operation}

/-- A pip that the device does not know is refused in every state. -/
theorem answer_of_wire?_eq_none (hf : f.layout.device = d) (hg : g.layout.device = d)
    (routing : o.isRouting = true) (unknown : o.wire? d = none) :
    (f.perform o).answer = (g.perform o).answer := by
  cases o with
  | bindPip p n strength =>
    cases target : d.target p with
    | ok w => cases unknown.symm.trans (Operation.toOption_target.mpr target)
    | error r =>
      simp only [perform, reply, bindPip, hf, hg, target]
      split <;> rfl
  | unbindPip p =>
    cases target : d.target p with
    | ok w => cases unknown.symm.trans (Operation.toOption_target.mpr target)
    | error r =>
      simp only [perform, reply, unbindPip, hf, hg, target]
      split <;> rfl
  | bindWire | unbindWire => cases unknown
  | _ => cases routing

theorem Reachable.answer_of_apart (h : Reachable d f) (apart : o.Apart d o') :
    ((f.perform o).state.perform o').answer = (f.perform o').answer := by
  cases apart with
  | @wires w w' wire wire' ne =>
    refine (Ledger.AlikeAt.view d w').answer_skip h (.refl d w' _) ?_ ?_
    · rw [Operation.concerns_of_wire? wire, decide_eq_false ne]
    · rw [Operation.concerns_of_wire? wire', decide_eq_true rfl]
  | placing site wire =>
    cases hw : o'.wire? d with
    | none => exact answer_of_wire?_eq_none (h.step o).device_eq h.device_eq wire hw
    | some w =>
      refine (Ledger.AlikeAt.view d w).answer_skip h (.refl d w _) ?_ ?_
      · exact Operation.concerns_of_isPlacing site w
      · rw [Operation.concerns_of_wire? hw, decide_eq_true rfl]
  | routing wire site =>
    refine (Ledger.PlacedAlike.view d).answer_skip h (.refl _) ?_ ?_
    · rw [wire]
      rfl
    · rw [Operation.isRouting_of_isPlacing site]
      rfl

/-- In either order the operations are answered as they would be alone, and lead to the same owners
and netlist. -/
structure Commutes (f : Flow β) (o o' : Operation) : Prop where
  first : ((f.perform o').state.perform o).answer = (f.perform o).answer
  second : ((f.perform o).state.perform o').answer = (f.perform o').answer
  ledger : (f.run [o, o']).ledger = (f.run [o', o]).ledger

theorem Reachable.commutes (h : Reachable d f) (apart : o.Apart d o') : f.Commutes o o' where
  first := h.answer_of_apart apart.symm
  second := h.answer_of_apart apart
  ledger := h.run_eq_of_filter_eq (fun w => Operation.filter_swap (apart.concerns w))
    (Operation.filter_swap apart.isRouting)

/-- Without the operations that are not about a wire every run answers the remaining ones as before
and leaves the wire, its uses and the pips that drive it as before; likewise for the sites and cells
without the operations on wires and pips. On the way operations that are apart may change places. -/
theorem Reachable.run_local (h : Reachable d f) (os : List Operation) :
    (∀ w, (f.transcript os).filter (·.1.concerns d w) =
        f.transcript (os.filter (·.concerns d w)) ∧
      (f.run os).ledger.AlikeAt d w (f.run (os.filter (·.concerns d w))).ledger) ∧
    (f.transcript os).filter (!·.1.isRouting) = f.transcript (os.filter (!·.isRouting)) ∧
    (f.run os).ledger.PlacedAlike (f.run (os.filter (!·.isRouting))).ledger ∧
    ∀ o o', o.Apart d o' → (f.run os).Commutes o o' := by
  obtain ⟨answers, placed⟩ := (Ledger.PlacedAlike.view d).run h h (.refl _) os
  refine ⟨fun w => ?_, answers, placed, fun o o' apart => (h.run os).commutes apart⟩
  exact (Ledger.AlikeAt.view d w).run h h (.refl d w _) os

/-- Operations on a site and on two wires by turns, with refused ones among them. -/
def mixed : List Operation :=
  [.addCell ⟨0⟩ ⟨1⟩, .bindSite ⟨0⟩ ⟨0⟩ .weak, .addNet ⟨2⟩, .bindWire ⟨2⟩ ⟨0⟩ .weak,
    .bindPip ⟨0⟩ ⟨0⟩ .strong, .bindSite ⟨0⟩ ⟨0⟩ .user, .unbindWire ⟨2⟩, .bindPip ⟨0⟩ ⟨0⟩ .weak,
    .unbindSite ⟨0⟩, .unbindWire ⟨1⟩]

/-- On the sample chip: the operations on the second wire, and those on the site. -/
theorem run_local_sample :
    Reachable Chip.sample.chip.device sample ∧
    (sample.transcript mixed).filter (·.1.concerns Chip.sample.chip.device ⟨1⟩) =
      sample.transcript [.addCell ⟨0⟩ ⟨1⟩, .addNet ⟨2⟩, .bindPip ⟨0⟩ ⟨0⟩ .strong,
        .bindPip ⟨0⟩ ⟨0⟩ .weak, .unbindWire ⟨1⟩] ∧
    (sample.transcript mixed).filter (!·.1.isRouting) =
      sample.transcript [.addCell ⟨0⟩ ⟨1⟩, .bindSite ⟨0⟩ ⟨0⟩ .weak, .addNet ⟨2⟩,
        .bindSite ⟨0⟩ ⟨0⟩ .user, .unbindSite ⟨0⟩] := by
  have h : Reachable Chip.sample.chip.device sample := sample_reachable []
  obtain ⟨wires, sites, _⟩ := h.run_local mixed
  exact ⟨h, (wires ⟨1⟩).1, sites⟩

end Flow

end Fabric
