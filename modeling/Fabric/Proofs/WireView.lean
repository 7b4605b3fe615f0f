import Fabric.Proofs.View
/-!
The view of a wire: its owner, its use in each net and the owners of the pips that drive it. Only
the operations on the wire change these, and nothing else matters to them. A wire is freed together
with the pip that a net records for it, which would show at another wire, were a recorded driver not
always a pip that drives the wire that it is recorded for.
-/

namespace Fabric

variable {β : Type} [BucketKey β]

/-- Two ledgers with as many cells and the same nets that agree on a wire: on its owner, on its use
in each net, and on the owners of the pips that drive it. -/
structure Ledger.AlikeAt (d : Device β) (w : Wire) (l l' : Ledger) : Prop where
  wire : l.owners.wire? w = l'.owners.wire? w
  use : ∀ n, l.netlist.use? n w = l'.netlist.use? n w
  pip : ∀ p, d.target p = .ok w → l.owners.pip? p = l'.owners.pip? p
  cells : l.netlist.cells.length = l'.netlist.cells.length
  nets : l.netlist.nets.map (·.name) = l'.netlist.nets.map (·.name)

namespace Ledger

theorem names_take {l : Ledger} {n : NetRef} {x : Net} (net : l.netlist.net? n = some x) (w : Wire)
    (u : WireUse) : (l.take n x w u).netlist.nets.map (·.name) = l.netlist.nets.map (·.name) := by
  rw [netlist_take]
  exact Netlist.map_set_eq_map net rfl

theorem names_release {l : Ledger} {n : NetRef} {x : Net} (net : l.netlist.net? n = some x)
    (w : Wire) (driver : Option Pip) :
    (l.release n x w driver).netlist.nets.map (·.name) = l.netlist.nets.map (·.name) := by
  rw [netlist_release]
  exact Netlist.map_set_eq_map net rfl

theorem cells_take (l : Ledger) (n : NetRef) (x : Net) (w : Wire) (u : WireUse) :
    (l.take n x w u).netlist.cells = l.netlist.cells := by
  rw [netlist_take]
  rfl

theorem cells_release (l : Ledger) (n : NetRef) (x : Net) (w : Wire) (driver : Option Pip) :
    (l.release n x w driver).netlist.cells = l.netlist.cells := by
  rw [netlist_release]
  rfl

namespace AlikeAt

variable {d : Device β} {w : Wire} {l l' : Ledger}

theorem refl (d : Device β) (w : Wire) (l : Ledger) : AlikeAt d w l l :=
  ⟨rfl, fun _ => rfl, fun _ _ => rfl, rfl, rfl⟩

/-- Both netlists have a net, or neither. -/
theorem net (h : AlikeAt d w l l') (n : NetRef) :
    (∃ r, l.netlist.net n = .error r ∧ l'.netlist.net n = .error r) ∨
    ∃ x x', l.netlist.net n = .ok x ∧ l'.netlist.net n = .ok x' ∧
      x.wires.get? w = x'.wires.get? w := by
  have length : l.netlist.nets.length = l'.netlist.nets.length := by
    simpa using congrArg List.length h.nets
  cases hx : l.netlist.net? n with
  | none =>
    have hx' : l'.netlist.net? n = none := by
      rw [Netlist.net?, List.getElem?_eq_none_iff, ← length]
      exact List.getElem?_eq_none_iff.mp hx
    refine .inl ⟨.outOfRange l.netlist.nets.length n.index, ?_, ?_⟩
    · simp [Netlist.net, hx]
    · simp [Netlist.net, hx', length]
  | some x =>
    obtain ⟨lt, _⟩ := List.getElem?_eq_some_iff.mp hx
    obtain ⟨x', hx'⟩ : ∃ x', l'.netlist.net? n = some x' :=
      ⟨_, List.getElem?_eq_getElem (length ▸ lt)⟩
    refine .inr ⟨x, x', by simp [Netlist.net, hx], by simp [Netlist.net, hx'], ?_⟩
    rw [← Netlist.use?_of_net? hx, ← Netlist.use?_of_net? hx']
    exact h.use n

/-! ### Answers -/

theorem bindWire_answer (h : AlikeAt d w l l') (n : NetRef) (strength : Strength) :
    (l.bindWire w n strength).answer = (l'.bindWire w n strength).answer := by
  rcases h.net n with ⟨r, hx, hx'⟩ | ⟨x, x', hx, hx', _⟩
  all_goals
    simp only [bindWire, h.wire, hx, hx']
    repeat' split
    all_goals rfl

theorem unbindWire_answer (h : AlikeAt d w l l') :
    (l.unbindWire w).answer = (l'.unbindWire w).answer := by
  simp only [unbindWire, h.wire]
  split
  · rfl
  cases l'.owners.wire? w with
  | none => rfl
  | some n =>
    rcases h.net n with ⟨r, hx, hx'⟩ | ⟨x, x', hx, hx', use⟩
    · simp only [hx, hx']
      rfl
    · simp only [hx, hx', use]
      split <;> rfl

theorem checkTarget (h : AlikeAt d w l l') (p : Pip) (n : NetRef) :
    l.checkTarget p w n = l'.checkTarget p w n := by
  rcases h.net n with ⟨r, hx, hx'⟩ | ⟨x, x', hx, hx', use⟩
  · simp only [Ledger.checkTarget, h.wire, hx, hx']
  · simp only [Ledger.checkTarget, h.wire, hx, hx', Net.driver?, use]

theorem bindPip_answer (h : AlikeAt d w l l') {p : Pip} (target : d.target p = .ok w) (n : NetRef)
    (strength : Strength) :
    (l.bindPip p w n strength).answer = (l'.bindPip p w n strength).answer := by
  rcases h.net n with ⟨r, hx, hx'⟩ | ⟨x, x', hx, hx', _⟩
  all_goals
    simp only [bindPip, h.pip p target, h.checkTarget, hx, hx']
    repeat' split
    all_goals rfl

theorem unbindPip_answer (h : AlikeAt d w l l') {p : Pip} (target : d.target p = .ok w) :
    (l.unbindPip p w).answer = (l'.unbindPip p w).answer := by
  simp only [unbindPip, h.pip p target, h.wire]
  split
  · rfl
  cases l'.owners.pip? p with
  | none => rfl
  | some n =>
    rcases h.net n with ⟨r, hx, hx'⟩ | ⟨x, x', hx, hx', _⟩
    all_goals
      simp only [hx, hx']
      repeat' split
      all_goals rfl

/-! ### Moves -/

theorem take (h : AlikeAt d w l l') {n : NetRef} {x x' : Net} (net : l.netlist.net? n = some x)
    (net' : l'.netlist.net? n = some x') (u : WireUse) :
    AlikeAt d w (l.take n x w u) (l'.take n x' w u) where
  wire := by simp
  use n' := by rw [use?_take l net, use?_take l' net', h.use]
  pip p target := by rw [pip?_take, pip?_take, h.pip p target]
  cells := by rw [cells_take, cells_take, h.cells]
  nets := by rw [names_take net, names_take net', h.nets]

theorem release (h : AlikeAt d w l l') {n : NetRef} {x x' : Net} (net : l.netlist.net? n = some x)
    (net' : l'.netlist.net? n = some x') (driver : Option Pip) :
    AlikeAt d w (l.release n x w driver) (l'.release n x' w driver) where
  wire := by simp
  use n' := by rw [use?_release l net, use?_release l' net', h.use]
  pip p target := by rw [pip?_release, pip?_release, h.pip p target]
  cells := by rw [cells_release, cells_release, h.cells]
  nets := by rw [names_release net, names_release net', h.nets]

/-- A net takes another wire. -/
theorem take_other (h : AlikeAt d w l l') {w' : Wire} (other : w' ≠ w) {n : NetRef} {x : Net}
    (net : l.netlist.net? n = some x) {u : WireUse}
    (driver : ∀ p, u.driver = some p → d.target p = .ok w') :
    AlikeAt d w (l.take n x w' u) l' where
  wire := by rw [wire?_take, if_neg (Ne.symm other), h.wire]
  use n' := by rw [use?_take l net, if_neg fun e => other e.2.symm, h.use]
  pip p target := by
    have elsewhere : u.driver ≠ some p := by
      intro e
      cases target.symm.trans (driver p e)
      exact other rfl
    rw [pip?_take, if_neg elsewhere, h.pip p target]
  cells := by rw [cells_take, h.cells]
  nets := by rw [names_take net, h.nets]

/-- A net gives up another wire. -/
theorem release_other (h : AlikeAt d w l l') {w' : Wire} (other : w' ≠ w) {n : NetRef} {x : Net}
    (net : l.netlist.net? n = some x) {driver : Option Pip}
    (drives : ∀ p, driver = some p → d.target p = .ok w') :
    AlikeAt d w (l.release n x w' driver) l' where
  wire := by rw [wire?_release, if_neg (Ne.symm other), h.wire]
  use n' := by rw [use?_release l net, if_neg fun e => other e.2.symm, h.use]
  pip p target := by
    have elsewhere : driver ≠ some p := by
      intro e
      cases target.symm.trans (drives p e)
      exact other rfl
    rw [pip?_release, if_neg elsewhere, h.pip p target]
  cells := by rw [cells_release, h.cells]
  nets := by rw [names_release net, h.nets]

theorem place_other (h : AlikeAt d w l l') (s : Site) (c : CellRef) (x : Cell)
    (strength : Strength) : AlikeAt d w (l.place s c x strength) l' where
  wire := h.wire
  use := h.use
  pip := h.pip
  cells := List.length_set.trans h.cells
  nets := h.nets

theorem vacate_other (h : AlikeAt d w l l') (s : Site) (c : CellRef) (x : Cell) :
    AlikeAt d w (l.vacate s c x) l' where
  wire := h.wire
  use := h.use
  pip := h.pip
  cells := List.length_set.trans h.cells
  nets := h.nets

end AlikeAt

end Ledger

namespace Ledger.AlikeAt

variable {d : Device β} {w : Wire} {l l' m m' : Ledger} {o : Operation} {reply reply' : Reply}
  {changes changes' : List Change}

theorem answer {f g : Flow β} (hf : f.layout.device = d) (hg : g.layout.device = d)
    (h : AlikeAt d w f.ledger g.ledger) (ho : o.concerns d w = true) :
    (f.perform o).answer = (g.perform o).answer := by
  cases o with
  | addCell name type =>
    have length : f.netlist.cells.length = g.netlist.cells.length := h.cells
    show Except.ok (Reply.cell (.ofIndex f.netlist.cells.length)) = _
    rw [length]
    rfl
  | addNet name =>
    have length : f.netlist.nets.length = g.netlist.nets.length := by
      simpa [Flow.ledger] using congrArg List.length h.nets
    show Except.ok (Reply.net (.ofIndex f.netlist.nets.length)) = _
    rw [length]
    rfl
  | bindSite s c strength => cases ho
  | unbindSite s => cases ho
  | bindWire w' n strength =>
    cases Operation.concerns_bindWire.mp ho
    simp only [Flow.perform, Flow.reply, Flow.bindWire, hf, hg]
    split
    · rfl
    · split
      · simp only [Flow.commit_answer, h.bindWire_answer]
      · rfl
  | unbindWire w' =>
    cases Operation.concerns_unbindWire.mp ho
    simp only [Flow.perform, Flow.reply, Flow.unbindWire, Flow.commit_answer, h.unbindWire_answer]
  | bindPip p n strength =>
    have target := Operation.concerns_bindPip.mp ho
    simp only [Flow.perform, Flow.reply, Flow.bindPip, hf, hg, target]
    split
    · rfl
    · simp only [Flow.commit_answer, h.bindPip_answer target]
  | unbindPip p =>
    have target := Operation.concerns_unbindPip.mp ho
    simp only [Flow.perform, Flow.reply, Flow.unbindPip, hf, hg, target]
    split
    · rfl
    · simp only [Flow.commit_answer, h.unbindPip_answer target]

theorem both (h : AlikeAt d w l l') (ho : o.concerns d w = true) (he : Effect d l o reply changes m)
    (he' : Effect d l' o reply' changes' m') : AlikeAt d w m m' := by
  cases he with
  | addCell name type =>
    cases he'
    refine ⟨h.wire, h.use, h.pip, ?_, h.nets⟩
    simp [Netlist.addCell, h.cells]
  | addNet name =>
    cases he'
    refine ⟨h.wire, fun n => ?_, h.pip, h.cells, ?_⟩
    · rw [Netlist.use?_addNet, Netlist.use?_addNet, h.use]
    · simp [Netlist.addNet, h.nets]
  | bindSite inside can strength => cases ho
  | unbindSite can => cases ho
  | bindWire inside can strength =>
    cases Operation.concerns_bindWire.mp ho
    cases he' with
    | bindWire inside' can' => exact h.take can.net can'.net _
  | @unbindWire w n x u can =>
    cases Operation.concerns_unbindWire.mp ho
    cases he' with
    | @unbindWire w n' x' u' can' =>
      cases can.owned.symm.trans (h.wire.trans can'.owned)
      have uses : x.wires.get? w = x'.wires.get? w := by
        rw [← Netlist.use?_of_net? can.net, ← Netlist.use?_of_net? can'.net]
        exact h.use n
      cases can.listed.symm.trans (uses.trans can'.listed)
      exact h.release can.net can'.net _
  | bindPip target can strength =>
    cases target.symm.trans (Operation.concerns_bindPip.mp ho)
    cases he' with
    | bindPip target' can' =>
      cases target.symm.trans target'
      exact h.take can.net can'.net _
  | @unbindPip p w n x target can =>
    cases target.symm.trans (Operation.concerns_unbindPip.mp ho)
    cases he' with
    | @unbindPip p w' n' x' target' can' =>
      cases target.symm.trans target'
      cases can.target_owned.symm.trans (h.wire.trans can'.target_owned)
      exact h.release can.net can'.net _

/-- The pip that is freed with another wire drives that wire. -/
theorem other (hl : l.Consistent d) (h : AlikeAt d w l l') (ho : o.concerns d w = false)
    (he : Effect d l o reply changes m) : AlikeAt d w m l' := by
  cases he with
  | addCell name type => cases ho
  | addNet name => cases ho
  | bindSite inside can strength => exact h.place_other _ _ _ _
  | unbindSite can => exact h.vacate_other _ _ _
  | bindWire inside can strength =>
    refine h.take_other (fun e => ?_) can.net nofun
    cases ho.symm.trans (Operation.concerns_bindWire.mpr e)
  | unbindWire can =>
    refine h.release_other (fun e => ?_) can.net fun p hp => (hl.driver_bound can hp).1
    cases ho.symm.trans (Operation.concerns_unbindWire.mpr e)
  | bindPip target can strength =>
    refine h.take_other (fun e => ?_) can.net ?_
    · cases ho.symm.trans (Operation.concerns_bindPip.mpr (e ▸ target))
    · rintro q ⟨⟩
      exact target
  | unbindPip target can =>
    refine h.release_other (fun e => ?_) can.net ?_
    · cases ho.symm.trans (Operation.concerns_unbindPip.mpr (e ▸ target))
    · rintro q ⟨⟩
      exact target

/-- What the operations on a wire do does not depend on the others. -/
theorem view (d : Device β) (w : Wire) : View d (·.concerns d w) (AlikeAt d w) :=
  ⟨answer, both, other⟩

end Ledger.AlikeAt

end Fabric
