import Fabric.Proofs.Availability
import Fabric.Proofs.Membership
/-!
Undoing. In a reachable flow every operation that binds or frees something has an operation that
takes it back, down to the strengths. The one exception is a pip over a wire that its net uses
already: freeing the pip frees the wire as well, as if the wire had been freed instead.
-/

namespace Fabric

/-! ## Moves back -/

namespace Ledger

variable {l : Ledger} {s : Site} {c : CellRef} {w : Wire} {n : NetRef}

/-- A cell that was bare before it was placed is bare again when it is taken off. -/
theorem vacate_place {x : Cell} (can : l.CanBindSite s c x) (bare : x.strength = .none)
    (strength : Strength) :
    (l.place s c x strength).vacate s c { x with site := some s, strength } = l := by
  have cell : { x with site := none, strength := .none } = x := by
    obtain ⟨name, type, site, strength⟩ := x
    cases can.unplaced
    cases bare
    rfl
  have sites : (l.owners.ofSite.insert s c).erase s = l.owners.ofSite := by
    rw [SortedMap.erase_insert, SortedMap.erase_of_get?_eq_none can.free]
  simp only [place, vacate, setCell, setSite, freeSite, Netlist.setCell_setCell, cell, sites,
    Netlist.setCell_of_cell? can.cell]

theorem place_vacate {x : Cell} (can : l.CanUnbindSite s c x) (placed : x.site = some s) :
    (l.vacate s c x).place s c { x with site := none, strength := .none } x.strength = l := by
  have cell : { x with site := some s } = x := by
    obtain ⟨name, type, site, strength⟩ := x
    cases placed
    rfl
  have sites : (l.owners.ofSite.erase s).insert s c = l.owners.ofSite := by
    rw [SortedMap.insert_erase, SortedMap.insert_of_get?_eq_some can.owned]
  simp only [place, vacate, setCell, setSite, freeSite, Netlist.setCell_setCell, cell, sites,
    Netlist.setCell_of_cell? can.cell]

/-- When a net gives up a wire that it took, nothing is left of a use that the wire had before. -/
theorem release_take (n : NetRef) (x : Net) (w : Wire) (u : WireUse)
    (free : ∀ p, u.driver = some p → l.owners.pip? p = none) :
    (l.take n x w u).release n { x with wires := x.wires.insert w u } w u.driver =
      l.release n x w none := by
  cases hd : u.driver with
  | none =>
    simp only [take, release, hd, useWire, dropWire, setWire, freeWire, SortedMap.erase_insert,
      Netlist.setNet_setNet]
  | some p =>
    have pips : (l.owners.ofPip.insert p n).erase p = l.owners.ofPip := by
      rw [SortedMap.erase_insert, SortedMap.erase_of_get?_eq_none (free p hd)]
    simp only [take, release, hd, useWire, dropWire, setWire, setPip, freeWire, freePip,
      SortedMap.erase_insert, pips, Netlist.setNet_setNet]

theorem Consistent.release_of_free {β : Type} [BucketKey β] {d : Device β} (h : l.Consistent d)
    {x : Net} (net : l.netlist.net? n = some x) (free : l.owners.wire? w = none) :
    l.release n x w none = l := by
  have unlisted : x.wires.get? w = none := by
    rw [← Netlist.use?_of_net? net, h.use?_eq_none]
    rw [free]
    exact nofun
  have wires : l.owners.ofWire.erase w = l.owners.ofWire :=
    SortedMap.erase_of_get?_eq_none free
  simp only [Ledger.release, dropWire, freeWire, SortedMap.erase_of_get?_eq_none unlisted, wires,
    Netlist.setNet_of_net? net]

theorem take_release {x : Net} {u : WireUse} (can : l.CanUnbindWire w n x u)
    (bound : ∀ p, u.driver = some p → l.owners.pip? p = some n) :
    (l.release n x w u.driver).take n { x with wires := x.wires.erase w } w u = l := by
  have wires : (l.owners.ofWire.erase w).insert w n = l.owners.ofWire := by
    rw [SortedMap.insert_erase, SortedMap.insert_of_get?_eq_some can.owned]
  have uses : (x.wires.erase w).insert w u = x.wires := by
    rw [SortedMap.insert_erase, SortedMap.insert_of_get?_eq_some can.listed]
  cases hd : u.driver with
  | none =>
    simp only [take, release, hd, useWire, dropWire, setWire, freeWire, wires, uses,
      Netlist.setNet_setNet, Netlist.setNet_of_net? can.net]
  | some p =>
    have pips : (l.owners.ofPip.erase p).insert p n = l.owners.ofPip := by
      rw [SortedMap.insert_erase, SortedMap.insert_of_get?_eq_some (bound p hd)]
    simp only [take, release, hd, useWire, dropWire, setWire, setPip, freeWire, freePip, wires,
      uses, pips, Netlist.setNet_setNet, Netlist.setNet_of_net? can.net]

theorem CanBindPip.release_take {p : Pip} {x : Net} (can : l.CanBindPip p w n x)
    (strength : Strength) :
    (l.take n x w ⟨some p, strength⟩).release n
      { x with wires := x.wires.insert w ⟨some p, strength⟩ } w (some p) =
      l.release n x w none := by
  refine Ledger.release_take n x w ⟨some p, strength⟩ ?_
  rintro q ⟨⟩
  exact can.free

/-! ## The operations back -/

theorem CanBindSite.back {x : Cell} (can : l.CanBindSite s c x) (strength : Strength) :
    (l.place s c x strength).CanUnbindSite s c { x with site := some s, strength } where
  notNull := can.notNull
  owned := by simp
  cell := Netlist.cell?_setCell_self can.cell rfl

theorem CanUnbindSite.back {x : Cell} (can : l.CanUnbindSite s c x) :
    (l.vacate s c x).CanBindSite s c { x with site := none, strength := .none } where
  notNull := can.notNull
  free := by simp
  cell := Netlist.cell?_setCell_self can.cell rfl
  unplaced := rfl

theorem net?_take {x : Net} (net : l.netlist.net? n = some x) (u : WireUse) :
    (l.take n x w u).netlist.net? n = some { x with wires := x.wires.insert w u } := by
  rw [netlist_take]
  exact Netlist.net?_setNet_self net rfl

theorem net?_release {x : Net} (net : l.netlist.net? n = some x) (driver : Option Pip) :
    (l.release n x w driver).netlist.net? n = some { x with wires := x.wires.erase w } := by
  rw [netlist_release]
  exact Netlist.net?_setNet_self net rfl

theorem CanBindWire.back {x : Net} (can : l.CanBindWire w n x) (u : WireUse) :
    (l.take n x w u).CanUnbindWire w n { x with wires := x.wires.insert w u } u where
  notNull := can.notNull
  owned := by simp
  net := net?_take can.net u
  listed := x.wires.get?_insert_self w u

theorem CanBindPip.back {p : Pip} {x : Net} (can : l.CanBindPip p w n x) (strength : Strength) :
    (l.take n x w ⟨some p, strength⟩).CanUnbindPip p w n
      { x with wires := x.wires.insert w ⟨some p, strength⟩ } where
  notNull := can.notNull
  owned := by simp
  target_owned := by simp
  net := net?_take can.net ⟨some p, strength⟩

end Ledger

/-- The operation that gives a wire back to a net, in the use that the wire had there. -/
def WireUse.rebind (u : WireUse) (w : Wire) (n : NetRef) : Operation :=
  match u.driver with
  | none => .bindWire w n u.strength
  | some p => .bindPip p n u.strength

variable {β : Type} [BucketKey β]

/-- A net that has given up a wire can take it back. Without a driver the wire must be the
device's. -/
theorem Ledger.Consistent.effect_rebind {d : Device β} {l : Ledger} (h : l.Consistent d)
    (notNull : l.owners.NotNull) {w : Wire} {n : NetRef} {x : Net} {u : WireUse}
    (can : l.CanUnbindWire w n x u) (inside : u.driver = none → d.hasWire w = true) :
    ∃ changes, Effect d (l.release n x w u.driver) (u.rebind w n) .done changes l := by
  have free : (l.release n x w u.driver).owners.wire? w = none := by simp
  have net := l.net?_release (w := w) can.net u.driver
  have back := l.take_release can fun _ hp => (h.driver_bound can hp).2
  obtain ⟨driver, strength⟩ := u
  cases driver with
  | none =>
    have again := Effect.bindWire (inside rfl) ⟨can.notNull, free, net⟩ strength
    rw [back] at again
    exact ⟨[.wire w], again⟩
  | some p =>
    obtain ⟨target, owned⟩ := h.driver_bound can rfl
    have can' : (l.release n x w (some p)).CanBindPip p w n { x with wires := x.wires.erase w } :=
      ⟨notNull.pip p n owned, can.notNull, by simp, net, by simp⟩
    have again := Effect.bindPip target can' strength
    rw [back] at again
    exact ⟨[.pip p, .wire w], again⟩

namespace Flow

/-- Carried out one after the other, the operations restore owners and netlist. -/
def Restores (f : Flow β) (o o' : Operation) : Prop :=
  ((f.perform o).state.perform o').accepted = true ∧ (f.run [o, o']).ledger = f.ledger

section
variable {d : Device β} {f : Flow β} (h : Reachable d f)
include h

theorem Reachable.undo_bindSite {s : Site} {c : CellRef} {strength : Strength}
    (done : (f.perform (.bindSite s c strength)).accepted = true) :
    f.Restores (.bindSite s c strength) (.unbindSite s) := by
  obtain ⟨reply, changes, l, he⟩ := accepted_iff.mp done
  cases he with
  | @bindSite s c x inside can =>
    have bare : x.strength = .none :=
      h.consistent.unplaced x (List.mem_of_getElem? can.cell) can.unplaced
    have back := Effect.unbindSite (d := f.layout.device) (can.back strength)
    rw [Ledger.vacate_place can bare strength] at back
    exact run_of_effects (.bindSite inside can strength) back

theorem Reachable.undo_bindWire {w : Wire} {n : NetRef} {strength : Strength}
    (done : (f.perform (.bindWire w n strength)).accepted = true) :
    f.Restores (.bindWire w n strength) (.unbindWire w) := by
  obtain ⟨reply, changes, l, he⟩ := accepted_iff.mp done
  cases he with
  | @bindWire w n x inside can =>
    have back := Effect.unbindWire (d := f.layout.device) (can.back ⟨none, strength⟩)
    rw [Ledger.release_take n x w ⟨none, strength⟩ nofun,
      h.consistent.release_of_free can.net can.free] at back
    exact run_of_effects (.bindWire inside can strength) back

/-- The wire that a pip drives is free again, too, if it was free before. -/
theorem Reachable.undo_bindPip {p : Pip} {w : Wire} {n : NetRef} {strength : Strength}
    (target : d.target p = .ok w) (free : f.layout.owners.wire? w = none)
    (done : (f.perform (.bindPip p n strength)).accepted = true) :
    f.Restores (.bindPip p n strength) (.unbindPip p) := by
  obtain ⟨reply, changes, l, he⟩ := accepted_iff.mp done
  cases he with
  | @bindPip p w' n x target' can =>
    cases target.symm.trans (h.device_eq ▸ target')
    have back := Effect.unbindPip target' (can.back strength)
    rw [can.release_take strength, h.consistent.release_of_free can.net free] at back
    exact run_of_effects (.bindPip target' can strength) back

/-- A pip bound over a wire of its net and freed again: the wire has become free as well. -/
theorem Reachable.unbind_augmented {p : Pip} {w : Wire} {n : NetRef} {strength : Strength}
    (target : d.target p = .ok w) (used : f.layout.owners.wire? w ≠ none)
    (done : (f.perform (.bindPip p n strength)).accepted = true) :
    (f.perform (.unbindWire w)).accepted = true ∧
    ((f.perform (.bindPip p n strength)).state.perform (.unbindPip p)).accepted = true ∧
    (f.run [.bindPip p n strength, .unbindPip p]).ledger = (f.run [.unbindWire w]).ledger := by
  obtain ⟨reply, changes, l, he⟩ := accepted_iff.mp done
  cases he with
  | @bindPip p w' n x target' can =>
    cases target.symm.trans (h.device_eq ▸ target')
    obtain ⟨m, owned⟩ := Option.ne_none_iff_exists'.mp used
    obtain ⟨rfl, undriven⟩ := can.fits m owned
    obtain ⟨y, u, can'⟩ := h.canUnbindWire owned
    cases can.net.symm.trans can'.net
    have direct : u.driver = none := by
      rw [← undriven, Net.driver?, can'.listed]
      rfl
    have back := Effect.unbindPip target' (can.back strength)
    rw [can.release_take strength] at back
    obtain ⟨accepted, ledger⟩ := run_of_effects (.bindPip target' can strength) back
    refine ⟨accepted_iff.mpr ⟨_, _, _, .unbindWire can'⟩, accepted, ledger.trans ?_⟩
    simp only [Flow.run, perform_of_effect (.unbindWire can'), direct]
    rfl

theorem Reachable.undo_unbindSite {s : Site} {c : CellRef}
    (done : (f.perform (.unbindSite s)).answer = .ok (.cell c)) :
    ∃ x, f.netlist.cell? c = some x ∧ f.Restores (.unbindSite s) (.bindSite s c x.strength) := by
  obtain ⟨changes, l, he⟩ := answer_eq_ok_iff.mp done
  cases he with
  | @unbindSite s c x can =>
    have placed : x.site = some s := by
      obtain ⟨y, cell, placed⟩ := Netlist.siteOf?_eq_some.mp ((h.consistent.site s c).mp can.owned)
      cases can.cell.symm.trans cell
      exact placed
    have inside : f.layout.device.hasSite s = true :=
      h.device_eq ▸ h.reachedOn.sitesInside s c can.owned
    have back := Effect.bindSite inside can.back x.strength
    rw [Ledger.place_vacate can placed] at back
    exact ⟨x, can.cell, run_of_effects (.unbindSite can) back⟩

theorem Reachable.effect_rebind (hd : d.TargetsInside) {w : Wire} {n : NetRef} {x : Net}
    {u : WireUse} (can : f.ledger.CanUnbindWire w n x u) :
    ∃ changes, Effect f.layout.device (f.ledger.release n x w u.driver) (u.rebind w n) .done changes
      f.ledger := by
  have inside := h.reachedOn.wiresInside hd.drivesInside w n can.owned
  exact h.device_eq ▸ h.consistent.effect_rebind h.reached.notNull can fun _ => inside

theorem Reachable.undo_unbindWire (hd : d.TargetsInside) {w : Wire} {n : NetRef}
    (done : (f.perform (.unbindWire w)).answer = .ok (.net n)) :
    ∃ u, f.netlist.use? n w = some u ∧ f.Restores (.unbindWire w) (u.rebind w n) := by
  obtain ⟨changes, l, he⟩ := answer_eq_ok_iff.mp done
  cases he with
  | @unbindWire w n x u can =>
    have use : f.netlist.use? n w = some u := (Netlist.use?_of_net? can.net w).trans can.listed
    obtain ⟨changes, back⟩ := h.effect_rebind hd can
    exact ⟨u, use, run_of_effects (.unbindWire can) back⟩

/-- The pip is the driver that its wire has in the net. -/
theorem Reachable.undo_unbindPip (hd : d.TargetsInside) {p : Pip} {n : NetRef}
    (done : (f.perform (.unbindPip p)).answer = .ok (.net n)) :
    ∃ w u, d.target p = .ok w ∧ f.netlist.use? n w = some u ∧ u.driver = some p ∧
      f.Restores (.unbindPip p) (u.rebind w n) := by
  obtain ⟨changes, l, he⟩ := answer_eq_ok_iff.mp done
  cases he with
  | @unbindPip p w n x target can =>
    have target' : d.target p = .ok w := h.device_eq ▸ target
    obtain ⟨u, use, driver⟩ :=
      Netlist.driver?_eq_some.mp (h.consistent.driver?_of_pip? target' can.owned)
    obtain ⟨y, u', can'⟩ := h.canUnbindWire can.target_owned
    cases can.net.symm.trans can'.net
    cases use.symm.trans ((Netlist.use?_of_net? can.net w).trans can'.listed)
    obtain ⟨changes, back⟩ := h.effect_rebind hd can'
    rw [driver] at back
    exact ⟨w, u, target', use, driver, run_of_effects (.unbindPip target can) back⟩

end

/-! ## Chips -/

/-- What takes back what. -/
structure UndoLaws (f : Flow β) : Prop where
  bindSite : ∀ s c strength, (f.perform (.bindSite s c strength)).accepted = true →
    f.Restores (.bindSite s c strength) (.unbindSite s)
  bindWire : ∀ w n strength, (f.perform (.bindWire w n strength)).accepted = true →
    f.Restores (.bindWire w n strength) (.unbindWire w)
  bindPip : ∀ p w n strength, f.layout.device.target p = .ok w → f.layout.wireFree w = true →
    (f.perform (.bindPip p n strength)).accepted = true →
    f.Restores (.bindPip p n strength) (.unbindPip p)
  unbindSite : ∀ s c, (f.perform (.unbindSite s)).answer = .ok (.cell c) →
    ∃ x, f.netlist.cell? c = some x ∧ f.Restores (.unbindSite s) (.bindSite s c x.strength)
  unbindWire : ∀ w n, (f.perform (.unbindWire w)).answer = .ok (.net n) →
    ∃ u, f.netlist.use? n w = some u ∧ f.Restores (.unbindWire w) (u.rebind w n)
  unbindPip : ∀ p n, (f.perform (.unbindPip p)).answer = .ok (.net n) →
    ∃ w u, f.layout.device.target p = .ok w ∧ f.netlist.use? n w = some u ∧ u.driver = some p ∧
      f.Restores (.unbindPip p) (u.rebind w n)
  -- A pip over a wire that is in use already is not taken back: the wire becomes free.
  augmented : ∀ p w n strength, f.layout.device.target p = .ok w → f.layout.wireFree w = false →
    (f.perform (.bindPip p n strength)).accepted = true →
    (f.perform (.unbindWire w)).accepted = true ∧
    ((f.perform (.bindPip p n strength)).state.perform (.unbindPip p)).accepted = true ∧
    (f.run [.bindPip p n strength, .unbindPip p]).ledger = (f.run [.unbindWire w]).ledger

theorem reachable_undoLaws {c : Chip} (hc : c.Built) {f : Flow Symbol}
    (h : Reachable c.device f) : f.UndoLaws := by
  have hd := h.device_eq
  refine ⟨fun _ _ _ => h.undo_bindSite, fun _ _ _ => h.undo_bindWire, ?_,
    fun _ _ => h.undo_unbindSite, fun _ _ => h.undo_unbindWire hc.targetsInside, ?_, ?_⟩
  · intro p w n strength target free
    exact h.undo_bindPip (hd ▸ target) (Option.isNone_iff_eq_none.mp free)
  · rw [hd]
    exact fun _ _ => h.undo_unbindPip hc.targetsInside
  · intro p w n strength target used
    refine h.unbind_augmented (hd ▸ target) ?_
    intro free
    rw [Layout.wireFree, free] at used
    cases used

/-- On the sample chip: a pip bound over a wire of its net. -/
theorem reachable_undoLaws_sample :
    Chip.sample.chip.Built ∧
    Reachable Chip.sample.chip.device (sample.run [.addNet ⟨2⟩, .bindWire ⟨1⟩ ⟨0⟩ .locked]) ∧
    (sample.run [.addNet ⟨2⟩, .bindWire ⟨1⟩ ⟨0⟩ .locked]).UndoLaws :=
  ⟨Chip.sample_built, sample_reachable _,
    reachable_undoLaws Chip.sample_built (sample_reachable _)⟩

end Flow

end Fabric
