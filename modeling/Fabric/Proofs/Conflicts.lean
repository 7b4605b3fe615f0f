import Fabric.Proofs.Availability
/-!
Conflicts of pips. Binding a pip takes its target wire as well, but what a chip answers about a pip,
whether it is free and what is in its way, looks at the pip alone. A free pip can be bound to a net
exactly if no other net owns the target and no pip that drives it is bound; the refusal names what
is in the way.
-/

namespace Fabric

/-! ## The target of a free pip -/

namespace Ledger

variable {l : Ledger} {p : Pip} {w : Wire} {n : NetRef} {x : Net}

/-- A free pip is up to its target. -/
theorem bindPip_answer_of_free (hp : p ≠ .null) (hw : w ≠ .null) (free : l.owners.pip? p = none)
    (net : l.netlist.net? n = some x) (strength : Strength) :
    (l.bindPip p w n strength).answer = l.checkTarget p w n := by
  cases check : l.checkTarget p w n with
  | error r => simp [bindPip, hp, hw, free, check, Outcome.refuse]
  | ok _ => simp [bindPip, hp, hw, free, check, Netlist.net, net, Outcome.accept]

theorem checkTarget_eq_error (net : l.netlist.net? n = some x) {r : Refusal}
    (h : l.checkTarget p w n = .error r) :
    (∃ m, m ≠ n ∧ l.owners.wire? w = some m ∧ r = .targetTaken w p m) ∨
    ∃ q, l.owners.wire? w = some n ∧ l.netlist.driver? n w = some q ∧
      r = .targetDriven w p q := by
  rw [Netlist.driver?_of_net? net]
  unfold checkTarget at h
  cases owned : l.owners.wire? w with
  | none => simp [owned] at h
  | some m =>
    by_cases hm : m = n
    · cases driver : x.driver? w with
      | none => simp [owned, hm, Netlist.net, net, driver] at h
      | some q =>
        have hr : r = .targetDriven w p q := by
          simpa [owned, hm, Netlist.net, net, driver] using h.symm
        exact .inr ⟨q, congrArg some hm, rfl, hr⟩
    · have hr : r = .targetTaken w p m := by simpa [owned, hm] using h.symm
      exact .inl ⟨m, hm, rfl, hr⟩

end Ledger

namespace Flow

section
variable {β : Type} [BucketKey β] {d : Device β} {f : Flow β}

theorem bindPip_answer {p : Pip} {w : Wire} (hp : p ≠ .null)
    (target : f.layout.device.target p = .ok w) (n : NetRef) (strength : Strength) :
    (f.perform (.bindPip p n strength)).answer =
      (f.ledger.bindPip p w n strength).answer.map fun _ => .done := by
  simp only [perform, bindPip, Handle.isNull_iff, hp, ↓reduceIte, target, commit]
  cases (f.ledger.bindPip p w n strength).answer <;> rfl

/-- In a reachable flow a wire has no driver exactly if no pip that drives it is bound. -/
theorem Reachable.undriven_iff (h : Reachable d f) {w : Wire} {n : NetRef}
    (owner : ∀ m, f.layout.owners.wire? w = some m → m = n) :
    f.netlist.driver? n w = none ↔ ∀ q, d.target q = .ok w → f.layout.pipFree q = true := by
  constructor
  · intro undriven q target
    cases owned : f.layout.owners.pip? q with
    | none => simp [Layout.pipFree, owned]
    | some m =>
      have driver := h.consistent.driver?_of_pip? target owned
      obtain ⟨u, use, _⟩ := Netlist.driver?_eq_some.mp driver
      cases owner m ((h.consistent.wire w m).mpr ⟨u, use⟩)
      cases undriven.symm.trans driver
  · intro free
    cases driver : f.netlist.driver? n w with
    | none => rfl
    | some q =>
      have target := h.consistent.driver n w q driver
      have owned := (h.consistent.pip q n).mpr ⟨w, target, driver⟩
      cases (Option.isNone_iff_eq_none.mp (free q target)).symm.trans owned

/-- A free pip can be bound to a net exactly if its target is no other net's and no pip that drives
the target is bound. -/
theorem Reachable.bindPip_accepted_iff_of_free (h : Reachable d f) {p : Pip} {w : Wire} {n : NetRef}
    {x : Net} (free : f.layout.owners.pip? p = none) (target : d.target p = .ok w)
    (net : f.netlist.net? n = some x) {strength : Strength} :
    (f.perform (.bindPip p n strength)).accepted = true ↔ p ≠ .null ∧ w ≠ .null ∧
      (∀ m, f.layout.owners.wire? w = some m → m = n) ∧
      ∀ q, d.target q = .ok w → f.layout.pipFree q = true := by
  rw [bindPip_accepted_iff, h.device_eq]
  constructor
  · rintro ⟨hp, _, y, w', hy, hw, notNull, fits⟩
    cases target.symm.trans hw
    cases net.symm.trans hy
    have owner : ∀ m, f.layout.owners.wire? w = some m → m = n := by
      intro m hm
      rcases fits with nobody | ⟨own, _⟩
      · cases nobody.symm.trans hm
      · exact Option.some.inj (hm.symm.trans own)
    refine ⟨hp, notNull, owner, (h.undriven_iff owner).mp ?_⟩
    rcases fits with nobody | ⟨_, undriven⟩
    · have unused : f.netlist.use? n w = none :=
        h.consistent.use?_eq_none fun own => nomatch nobody.symm.trans own
      rw [Netlist.driver?, unused]
      rfl
    · exact (Netlist.driver?_of_net? net w).trans undriven
  · rintro ⟨hp, hw, owner, others⟩
    have undriven : x.driver? w = none :=
      (Netlist.driver?_of_net? net w).symm.trans ((h.undriven_iff owner).mpr others)
    refine ⟨hp, free, x, w, net, target, hw, ?_⟩
    cases owned : f.layout.owners.wire? w with
    | none => exact .inl rfl
    | some m => exact .inr ⟨congrArg some (owner m owned), undriven⟩

/-- A free pip is refused for the owner of its target, or for another pip that drives it. -/
theorem Reachable.bindPip_refusal_of_free (h : Reachable d f) {p : Pip} {w : Wire} {n : NetRef}
    {x : Net} (free : f.layout.owners.pip? p = none) (target : d.target p = .ok w)
    (net : f.netlist.net? n = some x) (hp : p ≠ .null) (hw : w ≠ .null) {strength : Strength}
    {r : Refusal} (refused : (f.perform (.bindPip p n strength)).answer = .error r) :
    (∃ m, m ≠ n ∧ f.layout.owners.wire? w = some m ∧ r = .targetTaken w p m) ∨
    ∃ q, q ≠ p ∧ d.target q = .ok w ∧ f.layout.owners.pip? q = some n ∧
      r = .targetDriven w p q := by
  have check : f.ledger.checkTarget p w n = .error r := by
    rw [bindPip_answer hp (h.device_eq ▸ target),
      Ledger.bindPip_answer_of_free hp hw free net] at refused
    cases check : f.ledger.checkTarget p w n with
    | ok _ =>
      rw [check] at refused
      cases refused
    | error r' =>
      rw [check] at refused
      cases refused
      rfl
  refine (Ledger.checkTarget_eq_error net check).imp id ?_
  rintro ⟨q, _, driver, hr⟩
  have drives := h.consistent.driver n w q driver
  have bound := (h.consistent.pip q n).mpr ⟨w, drives, driver⟩
  refine ⟨q, ?_, drives, bound, hr⟩
  rintro rfl
  cases free.symm.trans bound

end

/-! ## Chips -/

/-- About a free pip a chip reports nothing that is in the way. The pip can be bound to a net of the
netlist exactly if its target is no other net's and no pip that drives the target is bound; else the
refusal names the owner of the target or its driver. -/
theorem Reachable.bindPip_of_free {c : Chip} {f : Flow Symbol} (h : Reachable c.device f) {p : Pip}
    (inside : p.index < c.pips.length) (free : f.layout.pipFree p = true) {n : NetRef}
    (net : n.index < f.netlist.nets.length) :
    f.layout.device.pipBlockerWire p = none ∧ f.layout.pipBlocker p = none ∧
    ∃ w, c.device.target p = .ok w ∧ ∀ strength,
      ((f.perform (.bindPip p n strength)).accepted = true ↔ p ≠ .null ∧ w ≠ .null ∧
        (∀ m, f.layout.owners.wire? w = some m → m = n) ∧
        ∀ q, c.device.target q = .ok w → f.layout.pipFree q = true) ∧
      ∀ r, p ≠ .null → w ≠ .null → (f.perform (.bindPip p n strength)).answer = .error r →
        (∃ m, m ≠ n ∧ f.layout.owners.wire? w = some m ∧ r = .targetTaken w p m) ∨
        ∃ q, q ≠ p ∧ c.device.target q = .ok w ∧ f.layout.owners.pip? q = some n ∧
          r = .targetDriven w p q := by
  have hd := h.device_eq
  have free' : f.layout.owners.pip? p = none := Option.isNone_iff_eq_none.mp free
  obtain ⟨row, hrow⟩ : ∃ row, c.pip? p = some row := ⟨_, List.getElem?_eq_getElem inside⟩
  obtain ⟨x, hx⟩ : ∃ x, f.netlist.net? n = some x := ⟨_, List.getElem?_eq_getElem net⟩
  have target : c.device.target p = .ok row.target := by rw [device_target, hrow]
  refine ⟨?_, ?_, row.target, target, fun strength => ⟨?_, fun r hp hw refused => ?_⟩⟩
  · rw [hd]
    rfl
  · rw [Layout.pipBlocker, hd]
    exact free'
  · exact h.bindPip_accepted_iff_of_free free' target hx
  · exact h.bindPip_refusal_of_free free' target hx hp hw refused

/-- The sample chip with the target of its pip bound to the second of two nets. -/
def crossed : Flow Symbol := sample.run [.addNet ⟨2⟩, .addNet ⟨3⟩, .bindWire ⟨1⟩ ⟨1⟩ .weak]

theorem bindPip_of_free_crossed :
    Reachable Chip.sample.chip.device crossed ∧ (⟨0⟩ : Pip).index < Chip.sample.chip.pips.length ∧
    crossed.layout.pipFree ⟨0⟩ = true ∧ (⟨1⟩ : NetRef).index < crossed.netlist.nets.length ∧
    ∃ w, Chip.sample.chip.device.target ⟨0⟩ = .ok w ∧
      ∀ m, crossed.layout.owners.wire? w = some m → m = ⟨1⟩ := by
  have h : Reachable Chip.sample.chip.device crossed := sample_reachable _
  obtain ⟨_, _, w, target, bind⟩ :=
    h.bindPip_of_free (p := ⟨0⟩) (n := ⟨1⟩) (by decide) rfl (by decide)
  obtain ⟨_, _, owner, _⟩ := (bind .weak).1.mp rfl
  exact ⟨h, by decide, rfl, by decide, w, target, owner⟩

/-- A pip that is free, and with nothing reported in its way, may still be refused. -/
theorem bindPip_crossed :
    Chip.sample.chip.Built ∧ Reachable Chip.sample.chip.device crossed ∧
    (⟨0⟩ : Pip).index < Chip.sample.chip.pips.length ∧
    (⟨0⟩ : NetRef).index < crossed.netlist.nets.length ∧ crossed.layout.pipFree ⟨0⟩ = true ∧
    crossed.layout.device.pipBlockerWire ⟨0⟩ = none ∧ crossed.layout.pipBlocker ⟨0⟩ = none ∧
    (crossed.perform (.bindPip ⟨0⟩ ⟨0⟩ .weak)).answer = .error (.targetTaken ⟨1⟩ ⟨0⟩ ⟨1⟩) :=
  ⟨Chip.sample_built, sample_reachable _, by decide, by decide, rfl, rfl, rfl, rfl⟩

end Flow

end Fabric
