import Fabric.Proofs.Agreement
import Fabric.Proofs.Reachable
/-!
Drivers behind a passed audit. A net may list a pip as the driver of a second wire, which the pip
does not drive, and an audit still passes. The record that is left when the pip is freed is found
only then, so audits go on passing exactly as long as no pip is recorded twice.
-/

namespace Fabric

variable {β : Type} [BucketKey β]

/-- No net records the pip at another wire. -/
def Netlist.DrivesOnly (m : Netlist) (p : Pip) (w : Wire) : Prop :=
  ∀ n w', m.driver? n w' = some p → w' = w

/-- No pip is recorded as the driver of two wires. -/
def Netlist.DrivesOnce (m : Netlist) : Prop :=
  ∀ n w p, m.driver? n w = some p → m.DrivesOnly p w

namespace Flow.Agrees

variable {f : Flow β}

/-- A recorded driver is bound, and recorded at the wire that it drives as well. -/
theorem target_of_driver (h : f.Agrees) {n : NetRef} {w : Wire} {p : Pip}
    (hp : f.netlist.driver? n w = some p) :
    ∃ w', f.layout.device.target p = .ok w' ∧ f.netlist.driver? n w' = some p := by
  obtain ⟨w', target, _, hd⟩ := h.pip p n (h.driver n w p hp)
  exact ⟨w', target, hd⟩

theorem drivesOnce_iff_target (h : f.Agrees) : f.netlist.DrivesOnce ↔
    ∀ n w p, f.netlist.driver? n w = some p → f.layout.device.target p = .ok w := by
  constructor
  · intro once n w p hp
    obtain ⟨w', target, hd⟩ := h.target_of_driver hp
    have e : w' = w := once n w p hp n w' hd
    exact e ▸ target
  · intro target n w p hp n' w' hp'
    have e := (target n' w' p hp').symm.trans (target n w p hp)
    exact Except.ok.inj e

/-- A driver that is recorded at another wire as well stays recorded there when its pip is freed. -/
theorem drivesOnly_of_release {n : NetRef} {x : Net} {w : Wire}
    (net : f.netlist.net? n = some x) {changes : List Change}
    (hg : (f.moved (f.ledger.release n x w (f.netlist.driver? n w)) changes).Agrees) {p : Pip}
    (hp : f.netlist.driver? n w = some p) : f.netlist.DrivesOnly p w := by
  intro n' w' hp'
  apply Decidable.byContradiction
  intro hw
  have left := f.ledger.driver?_release net (w := w) (f.netlist.driver? n w) n' w'
  rw [if_neg fun e => hw e.2] at left
  have bound := hg.driver n' w' p (left.trans hp')
  have free := f.ledger.pip?_release (n := n) (w := w) x (f.netlist.driver? n w) p
  rw [if_pos hp] at free
  cases free.symm.trans bound

theorem release (h : f.Agrees) {n : NetRef} {x : Net} {w : Wire}
    (net : f.netlist.net? n = some x) (owned : f.layout.owners.wire? w = some n)
    (only : ∀ p, f.netlist.driver? n w = some p → f.netlist.DrivesOnly p w)
    (changes : List Change) :
    (f.moved (f.ledger.release n x w (f.netlist.driver? n w)) changes).Agrees := by
  have drivers := f.ledger.driver?_release net (w := w) (f.netlist.driver? n w)
  have pips := f.ledger.pip?_release (n := n) (w := w) x (f.netlist.driver? n w)
  have wires := f.ledger.wire?_release (n := n) (w := w) x (f.netlist.driver? n w)
  have sites := f.ledger.site?_release (n := n) (w := w) x (f.netlist.driver? n w)
  refine ⟨?_, f.ledger.wire_iff_use_release h.wire net owned _, ?_, ?_, ?_, ?_⟩
  · intro s c
    exact (sites s ▸ f.ledger.siteOf?_release x _ c ▸ h.site s c :)
  · intro n' w' p hp
    have hp' := (drivers n' w').symm.trans hp
    split at hp'
    · cases hp'
    next e =>
      have bound := h.driver n' w' p hp'
      refine (pips p).trans ?_
      rw [if_neg]
      · exact bound
      · intro hd
        have hn : n' = n := Option.some.inj (bound.symm.trans (h.driver n w p hd))
        exact e ⟨hn, only p hd n' w' hp'⟩
  · intro s c hc
    exact h.siteInside s c ((sites s).symm.trans hc)
  · intro w' n' hn
    have hn' := (wires w').symm.trans hn
    split at hn'
    · cases hn'
    · exact h.wireInside w' n' hn'
  · intro p n' hn
    have hn' := (pips p).symm.trans hn
    split at hn'
    · cases hn'
    next hd =>
      obtain ⟨w', target, owned', hd'⟩ := h.pip p n' hn'
      have hw : w' ≠ w := by
        rintro rfl
        cases owned.symm.trans owned'
        exact hd hd'
      refine ⟨w', target, (wires w').trans ?_, (drivers n' w').trans ?_⟩
      · rw [if_neg hw]
        exact owned'
      · rw [if_neg fun e => hw e.2]
        exact hd'

/-! ## Freeing -/

/-- A net gives up a wire of its own. -/
theorem audit_release_iff (h : f.Agrees) (tail : f.netlist.TailBlank) {n : NetRef} {x : Net}
    {w : Wire} (net : f.netlist.net? n = some x) (owned : f.layout.owners.wire? w = some n)
    (changes : List Change) :
    (f.moved (f.ledger.release n x w (f.netlist.driver? n w)) changes).audit = .ok () ↔
      ∀ p, f.netlist.driver? n w = some p → f.netlist.DrivesOnly p w := by
  have tail' : (f.ledger.release n x w (f.netlist.driver? n w)).netlist.TailBlank :=
    Ledger.netlist_release f.ledger _ _ ▸ tail.setNet n _
  rw [audit_eq_ok_iff (f := f.moved _ _) tail']
  exact ⟨fun hg _ => drivesOnly_of_release net hg, fun only => h.release net owned only changes⟩

theorem unbindWire (h : f.Agrees) (notNull : f.layout.owners.NotNull)
    (tail : f.netlist.TailBlank) {w : Wire} {n : NetRef}
    (owned : f.layout.owners.wire? w = some n) :
    (f.perform (.unbindWire w)).answer = .ok (.net n) ∧
    ((f.perform (.unbindWire w)).state.audit = .ok () ↔
      ∀ p, f.netlist.driver? n w = some p → f.netlist.DrivesOnly p w) := by
  obtain ⟨u, hu⟩ := (h.wire w n).mp owned
  obtain ⟨x, net, listed⟩ := Netlist.use?_eq_some.mp hu
  have can : f.ledger.CanUnbindWire w n x u := ⟨notNull.wire w n owned, owned, net, listed⟩
  have hd : f.netlist.driver? n w = u.driver := by
    rw [Netlist.driver?, hu]
    rfl
  rw [perform_of_effect (.unbindWire can), ← hd]
  exact ⟨rfl, h.audit_release_iff tail net owned _⟩

theorem unbindPip (h : f.Agrees) (notNull : f.layout.owners.NotNull)
    (tail : f.netlist.TailBlank) {p : Pip} {n : NetRef}
    (owned : f.layout.owners.pip? p = some n) :
    (f.perform (.unbindPip p)).answer = .ok (.net n) ∧
    ((f.perform (.unbindPip p)).state.audit = .ok () ↔
      ∀ w, f.layout.device.target p = .ok w → f.netlist.DrivesOnly p w) := by
  obtain ⟨w, target, target_owned, hd⟩ := h.pip p n owned
  obtain ⟨u, hu, _⟩ := Netlist.driver?_eq_some.mp hd
  obtain ⟨x, net, _⟩ := Netlist.use?_eq_some.mp hu
  have can : f.ledger.CanUnbindPip p w n x := ⟨notNull.pip p n owned, owned, target_owned, net⟩
  rw [perform_of_effect (.unbindPip target can), ← hd]
  refine ⟨rfl, (h.audit_release_iff tail net target_owned _).trans ⟨?_, ?_⟩⟩
  · intro only w' target'
    cases target.symm.trans target'
    exact only p hd
  · intro only p' hp'
    cases hd.symm.trans hp'
    exact only w target

end Flow.Agrees

/-- After a passed audit every recorded driver is bound and everything bound can be freed. That
recorded drivers drive their wires, and that audits pass after freeing any wire or any pip, each
amounts to no pip being recorded twice. -/
theorem Flow.audited_drivers {l : Layout β} (hl : l.Reached) {m : Netlist} (hm : m.Built)
    (h : (⟨l, m⟩ : Flow β).audit = .ok ()) :
    (∀ n w p, m.driver? n w = some p → l.owners.pip? p = some n) ∧
    (∀ w n, l.owners.wire? w = some n →
      (perform ⟨l, m⟩ (.unbindWire w)).answer = .ok (.net n)) ∧
    (∀ p n, l.owners.pip? p = some n →
      (perform ⟨l, m⟩ (.unbindPip p)).answer = .ok (.net n)) ∧
    (m.DrivesOnce ↔ ∀ n w p, m.driver? n w = some p → l.device.target p = .ok w) ∧
    (m.DrivesOnce ↔ ∀ w n, l.owners.wire? w = some n →
      (perform ⟨l, m⟩ (.unbindWire w)).state.audit = .ok ()) ∧
    (m.DrivesOnce ↔ ∀ p n, l.owners.pip? p = some n →
      (perform ⟨l, m⟩ (.unbindPip p)).state.audit = .ok ()) := by
  have ha : (⟨l, m⟩ : Flow β).Agrees := (audit_eq_ok_iff hm.tail).mp h
  have wire := fun w n => ha.unbindWire (w := w) (n := n) hl.notNull hm.tail
  have pip := fun p n => ha.unbindPip (p := p) (n := n) hl.notNull hm.tail
  refine ⟨ha.driver, ?_, ?_, ha.drivesOnce_iff_target, ⟨?_, ?_⟩, ⟨?_, ?_⟩⟩
  · intro w n owned
    exact (wire w n owned).1
  · intro p n owned
    exact (pip p n owned).1
  · intro once w n owned
    exact (wire w n owned).2.mpr (once n w)
  · intro passes n w p hp
    obtain ⟨u, hu, _⟩ := Netlist.driver?_eq_some.mp hp
    have owned := (ha.wire w n).mpr ⟨u, hu⟩
    exact (wire w n owned).2.mp (passes w n owned) p hp
  · intro once p n owned
    apply (pip p n owned).2.mpr
    intro w target
    obtain ⟨w', target', _, hd⟩ := ha.pip p n owned
    cases target.symm.trans target'
    exact once n w p hd
  · intro passes n w p hp
    have owned := ha.driver n w p hp
    obtain ⟨w', target, _⟩ := ha.target_of_driver hp
    have only := (pip p n owned).2.mp (passes p n owned) w' target
    rw [only n w hp]
    exact only

namespace Flow

/-- The sample chip with its pip and its last wire bound to a net. -/
def driven : Flow Symbol :=
  sample.run [.addNet ⟨2⟩, .bindPip ⟨0⟩ ⟨0⟩ .weak, .bindWire ⟨2⟩ ⟨0⟩ .weak]

theorem driven_reachable : Reachable Chip.sample.chip.device driven := sample_reachable _

theorem audited_drivers_driven :
    driven.layout.Reached ∧ driven.netlist.Built ∧ driven.audit = .ok () ∧
    (driven.perform (.unbindWire ⟨1⟩)).answer = .ok (.net ⟨0⟩) :=
  ⟨driven_reachable.reached, driven_reachable.built, rfl,
    (audited_drivers driven_reachable.reached driven_reachable.built rfl).2.1 ⟨1⟩ ⟨0⟩ rfl⟩

/-- The pip is entered by hand as the driver of the last wire, too. -/
def redriven : Flow Symbol where
  layout := driven.layout
  netlist := driven.netlist.setNet ⟨0⟩ ⟨⟨0⟩, ⟨2⟩,
    ((∅ : SortedMap Wire WireUse).insert ⟨1⟩ ⟨some ⟨0⟩, .weak⟩).insert ⟨2⟩ ⟨some ⟨0⟩, .weak⟩⟩

/-- A passed audit does not say that recorded drivers drive their wires, nor that audits go on
passing when one of these wires is freed. -/
theorem audit_redriven :
    driven.netlist.enterWire ⟨0⟩ ⟨2⟩ ⟨some ⟨0⟩, .weak⟩ = .ok (true, redriven.netlist) ∧
    redriven.layout.Reached ∧ redriven.netlist.Built ∧ redriven.audit = .ok () ∧
    redriven.netlist.driver? ⟨0⟩ ⟨2⟩ = some ⟨0⟩ ∧
    redriven.layout.device.target ⟨0⟩ = .ok ⟨1⟩ ∧
    (redriven.perform (.unbindWire ⟨2⟩)).answer = .ok (.net ⟨0⟩) ∧
    (redriven.perform (.unbindWire ⟨2⟩)).state.audit =
      .error (.found (.driverNotOwned ⟨0⟩ ⟨1⟩ ⟨0⟩)) :=
  ⟨rfl, driven_reachable.reached, driven_reachable.built.setNet _ _, rfl, rfl, rfl, rfl, rfl⟩

end Flow

end Fabric
