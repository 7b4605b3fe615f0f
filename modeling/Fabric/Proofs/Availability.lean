import Fabric.Proofs.Consistency
/-!
Availability. In a reachable flow on a chip the queries tell beforehand whether an operation will be
carried out: what is bound can be freed, by whoever asks, and what is free can be bound to any cell
or net that can take it. The refusals that speak of broken books never occur there.
-/

namespace Fabric.Flow

section
variable {β : Type} [BucketKey β] {d : Device β} {f : Flow β}

/-! ## Freeing what is bound -/

theorem Reachable.canUnbindSite (h : Reachable d f) {s : Site} {c : CellRef}
    (owned : f.layout.owners.site? s = some c) : ∃ x, f.ledger.CanUnbindSite s c x := by
  obtain ⟨x, hx, _⟩ := Netlist.siteOf?_eq_some.mp ((h.consistent.site s c).mp owned)
  exact ⟨x, h.reached.notNull.site s c owned, owned, hx⟩

theorem Reachable.canUnbindWire (h : Reachable d f) {w : Wire} {n : NetRef}
    (owned : f.layout.owners.wire? w = some n) : ∃ x u, f.ledger.CanUnbindWire w n x u := by
  obtain ⟨u, hu⟩ := (h.consistent.wire w n).mp owned
  obtain ⟨x, hx, hu⟩ := Netlist.use?_eq_some.mp hu
  exact ⟨x, u, h.reached.notNull.wire w n owned, owned, hx, hu⟩

/-- A bound pip drives a wire of its own net. -/
theorem Reachable.canUnbindPip (h : Reachable d f) {p : Pip} {n : NetRef}
    (owned : f.layout.owners.pip? p = some n) :
    ∃ w x, d.target p = .ok w ∧ f.ledger.CanUnbindPip p w n x := by
  obtain ⟨w, target, hd⟩ := (h.consistent.pip p n).mp owned
  obtain ⟨u, hu, _⟩ := Netlist.driver?_eq_some.mp hd
  obtain ⟨x, hx, _⟩ := Netlist.use?_eq_some.mp hu
  have wire := (h.consistent.wire w n).mpr ⟨u, hu⟩
  exact ⟨w, x, target, h.reached.notNull.pip p n owned, owned, wire, hx⟩

/-! ## Freeing what is free -/

theorem unbindSite_answer_of_free {s : Site} (free : f.ledger.owners.site? s = none) :
    (f.perform (.unbindSite s)).answer =
      .error (if s = .null then .nullHandle .unbindSite else .siteFree s) := by
  have hl : f.ledger.unbindSite s =
      .refuse f.ledger (if s = .null then .nullHandle .unbindSite else .siteFree s) := by
    by_cases hs : s = .null <;> simp [Ledger.unbindSite, hs, free]
  simp only [perform, unbindSite, hl, commit_refuse]
  rfl

theorem unbindWire_answer_of_free {w : Wire} (free : f.ledger.owners.wire? w = none) :
    (f.perform (.unbindWire w)).answer =
      .error (if w = .null then .nullHandle .unbindWire else .wireFree w) := by
  have hl : f.ledger.unbindWire w =
      .refuse f.ledger (if w = .null then .nullHandle .unbindWire else .wireFree w) := by
    by_cases hw : w = .null <;> simp [Ledger.unbindWire, hw, free]
  simp only [perform, unbindWire, hl, commit_refuse]
  rfl

/-- The device may be the one that refuses a pip. -/
theorem unbindPip_answer_of_free {p : Pip} (free : f.ledger.owners.pip? p = none) :
    (f.perform (.unbindPip p)).answer =
      .error (if p = .null then .nullHandle .unbindPip else
        match f.layout.device.target p with
        | .error r => r
        | .ok _ => .pipFree p) := by
  by_cases hp : p = .null
  · simp only [perform, unbindPip, Handle.isNull_iff, hp, ↓reduceIte]
    rfl
  · cases target : f.layout.device.target p with
    | error r =>
      simp only [perform, unbindPip, Handle.isNull_iff, hp, ↓reduceIte, target]
      rfl
    | ok w =>
      have hl : f.ledger.unbindPip p w = .refuse f.ledger (.pipFree p) := by
        simp [Ledger.unbindPip, hp, free]
      simp only [perform, unbindPip, Handle.isNull_iff, hp, ↓reduceIte, target, hl, commit_refuse]
      rfl

/-- In a reachable flow an owner is freed exactly if there is one. -/
theorem Reachable.unbindSite_answer (h : Reachable d f) (s : Site) :
    (f.perform (.unbindSite s)).answer = (f.layout.owners.site? s).elim
      (.error (if s = .null then .nullHandle .unbindSite else .siteFree s)) (.ok <| .cell ·) := by
  cases owned : f.layout.owners.site? s with
  | none => exact unbindSite_answer_of_free owned
  | some c =>
    obtain ⟨x, can⟩ := h.canUnbindSite owned
    rw [perform_of_effect (.unbindSite can)]
    rfl

theorem Reachable.unbindWire_answer (h : Reachable d f) (w : Wire) :
    (f.perform (.unbindWire w)).answer = (f.layout.owners.wire? w).elim
      (.error (if w = .null then .nullHandle .unbindWire else .wireFree w)) (.ok <| .net ·) := by
  cases owned : f.layout.owners.wire? w with
  | none => exact unbindWire_answer_of_free owned
  | some n =>
    obtain ⟨x, u, can⟩ := h.canUnbindWire owned
    rw [perform_of_effect (.unbindWire can)]
    rfl

theorem Reachable.unbindPip_answer (h : Reachable d f) (p : Pip) :
    (f.perform (.unbindPip p)).answer = (f.layout.owners.pip? p).elim
      (.error (if p = .null then .nullHandle .unbindPip else
        match d.target p with
        | .error r => r
        | .ok _ => .pipFree p)) (.ok <| .net ·) := by
  cases owned : f.layout.owners.pip? p with
  | none => exact h.device_eq ▸ unbindPip_answer_of_free owned
  | some n =>
    obtain ⟨w, x, target, can⟩ := h.canUnbindPip owned
    rw [perform_of_effect (.unbindPip (h.device_eq ▸ target) can)]
    rfl

/-! ## Binding -/

theorem bindSite_accepted_iff {s : Site} {c : CellRef} {strength : Strength} :
    (f.perform (.bindSite s c strength)).accepted = true ↔
      s ≠ .null ∧ f.layout.device.hasSite s = true ∧ f.layout.owners.site? s = none ∧
      ∃ x, f.netlist.cell? c = some x ∧ x.site = none := by
  rw [accepted_iff]
  constructor
  · rintro ⟨reply, changes, l, he⟩
    cases he with
    | bindSite inside can => exact ⟨can.notNull, inside, can.free, _, can.cell, can.unplaced⟩
  · rintro ⟨notNull, inside, free, x, cell, unplaced⟩
    exact ⟨_, _, _, .bindSite inside ⟨notNull, free, cell, unplaced⟩ strength⟩

theorem bindWire_accepted_iff {w : Wire} {n : NetRef} {strength : Strength} :
    (f.perform (.bindWire w n strength)).accepted = true ↔
      w ≠ .null ∧ f.layout.device.hasWire w = true ∧ f.layout.owners.wire? w = none ∧
      ∃ x, f.netlist.net? n = some x := by
  rw [accepted_iff]
  constructor
  · rintro ⟨reply, changes, l, he⟩
    cases he with
    | bindWire inside can => exact ⟨can.notNull, inside, can.free, _, can.net⟩
  · rintro ⟨notNull, inside, free, x, net⟩
    exact ⟨_, _, _, .bindWire inside ⟨notNull, free, net⟩ strength⟩

theorem bindPip_accepted_iff {p : Pip} {n : NetRef} {strength : Strength} :
    (f.perform (.bindPip p n strength)).accepted = true ↔
      p ≠ .null ∧ f.layout.owners.pip? p = none ∧ ∃ x w, f.netlist.net? n = some x ∧
      f.layout.device.target p = .ok w ∧ w ≠ .null ∧ (f.layout.owners.wire? w = none ∨
        f.layout.owners.wire? w = some n ∧ x.driver? w = none) := by
  rw [accepted_iff]
  constructor
  · rintro ⟨reply, changes, l, he⟩
    cases he with
    | @bindPip p w n x target can =>
      refine ⟨can.notNull, can.free, x, w, can.net, target, can.target_notNull, ?_⟩
      cases owned : f.layout.owners.wire? w with
      | none => exact .inl rfl
      | some m =>
        obtain ⟨rfl, undriven⟩ := can.fits m owned
        exact .inr ⟨rfl, undriven⟩
  · rintro ⟨notNull, free, x, w, net, target, target_notNull, fits⟩
    refine ⟨_, _, _, .bindPip target ⟨notNull, target_notNull, free, net, ?_⟩ strength⟩
    intro m hm
    rcases fits with unowned | ⟨owned, undriven⟩
    · cases unowned.symm.trans hm
    · exact ⟨Option.some.inj (hm.symm.trans owned), undriven⟩

end

/-! ## Chips -/

/-- The queries tell what happens to an operation on a chip. -/
structure Predictable (c : Chip) (f : Flow Symbol) : Prop where
  unbindSite : ∀ s, (f.perform (.unbindSite s)).accepted = true ↔ f.layout.siteFree s = false
  unbindWire : ∀ w, (f.perform (.unbindWire w)).accepted = true ↔ f.layout.wireFree w = false
  unbindPip : ∀ p, (f.perform (.unbindPip p)).accepted = true ↔ f.layout.pipFree p = false
  -- What is freed is answered as its owner.
  siteOwner : ∀ s k, (f.perform (.unbindSite s)).answer = .ok (.cell k) ↔
    f.layout.owners.site? s = some k
  wireOwner : ∀ w n, (f.perform (.unbindWire w)).answer = .ok (.net n) ↔
    f.layout.owners.wire? w = some n
  pipOwner : ∀ p n, (f.perform (.unbindPip p)).answer = .ok (.net n) ↔
    f.layout.owners.pip? p = some n
  -- There are no other reasons for not freeing something.
  siteReason : ∀ s r, (f.perform (.unbindSite s)).answer = .error r →
    r = .nullHandle .unbindSite ∨ r = .siteFree s
  wireReason : ∀ w r, (f.perform (.unbindWire w)).answer = .error r →
    r = .nullHandle .unbindWire ∨ r = .wireFree w
  pipReason : ∀ p r, (f.perform (.unbindPip p)).answer = .error r →
    r = .nullHandle .unbindPip ∨ r = .unknownPip c.name p ∨ r = .pipFree p
  bindSite : ∀ s k strength, (f.perform (.bindSite s k strength)).accepted = true ↔
    s ≠ .null ∧ s.index < c.sites.length ∧ f.layout.siteFree s = true ∧
    ∃ x, f.netlist.cell? k = some x ∧ x.site = none
  bindWire : ∀ w n strength, (f.perform (.bindWire w n strength)).accepted = true ↔
    w ≠ .null ∧ w.index < c.wires.length ∧ f.layout.wireFree w = true ∧
    ∃ x, f.netlist.net? n = some x
  bindPip : ∀ p n strength, (f.perform (.bindPip p n strength)).accepted = true ↔
    p ≠ .null ∧ p.index < c.pips.length ∧ f.layout.pipFree p = true ∧
    ∃ x w, f.netlist.net? n = some x ∧ c.device.target p = .ok w ∧
      (f.layout.wireFree w = true ∨ f.layout.owners.wire? w = some n ∧ x.driver? w = none)

/-- What an operation that answers the owner of something, if it has one, tells about it. -/
theorem outcome_of_owner {σ α : Type} {o : Outcome Refusal σ Reply} {owner : Option α}
    (wrap : α → Reply) (inj : ∀ {a b}, wrap a = wrap b → a = b) {r : Refusal}
    (h : o.answer = owner.elim (.error r) (.ok <| wrap ·)) :
    (o.accepted = true ↔ owner.isNone = false) ∧
    (∀ a, o.answer = .ok (wrap a) ↔ owner = some a) ∧ ∀ r', o.answer = .error r' → r' = r := by
  cases owner with
  | none =>
    refine ⟨?_, ?_, ?_⟩
    · simp [Outcome.accepted, h, Except.isOk, Except.toBool]
    · simp [h]
    · intro r' hr
      rw [h] at hr
      cases hr
      rfl
  | some b =>
    refine ⟨?_, ?_, ?_⟩
    · simp [Outcome.accepted, h, Except.isOk, Except.toBool]
    · intro a
      rw [h]
      constructor
      · intro e
        rw [inj (Except.ok.inj e)]
      · rintro ⟨⟩
        rfl
    · intro r' hr
      rw [h] at hr
      cases hr

theorem device_target (c : Chip) (p : Pip) : c.device.target p = match c.pip? p with
    | some row => .ok row.target
    | none => .error (.unknownPip c.name p) := by
  simp only [Chip.device, Chip.pip]
  cases c.pip? p <;> rfl

/-- In every reachable flow on a chip with fewer than 2^32 wires the queries decide what each
operation does, and no refusal to free something speaks of broken books. -/
theorem reachable_predictable {c : Chip} (hc : c.Built) (hw : c.wires.length < UInt32.size)
    {f : Flow Symbol} (h : Reachable c.device f) : Predictable c f := by
  have hd := h.device_eq
  have site := fun s => outcome_of_owner Reply.cell Reply.cell.inj (h.unbindSite_answer s)
  have wire := fun w => outcome_of_owner Reply.net Reply.net.inj (h.unbindWire_answer w)
  have pip := fun p => outcome_of_owner Reply.net Reply.net.inj (h.unbindPip_answer p)
  refine ⟨fun s => (site s).1, fun w => (wire w).1, fun p => (pip p).1, fun s => (site s).2.1,
    fun w => (wire w).2.1, fun p => (pip p).2.1, ?_, ?_, ?_, ?_, ?_, ?_⟩
  · intro s r hr
    rw [(site s).2.2 r hr]
    split <;> simp
  · intro w r hr
    rw [(wire w).2.2 r hr]
    split <;> simp
  · intro p r hr
    rw [(pip p).2.2 r hr, device_target]
    cases c.pip? p <;> split <;> simp
  · intro s k strength
    rw [bindSite_accepted_iff, hd]
    simp [Chip.device, Layout.siteFree]
  · intro w n strength
    rw [bindWire_accepted_iff, hd]
    simp [Chip.device, Layout.wireFree]
  · intro p n strength
    rw [bindPip_accepted_iff, hd]
    simp only [Layout.pipFree, Layout.wireFree, Option.isNone_iff_eq_none]
    constructor
    · rintro ⟨notNull, free, x, w, net, target, _, fits⟩
      obtain ⟨row, _, hrow, _⟩ := Chip.target_eq_ok target
      exact ⟨notNull, (List.getElem?_eq_some_iff.mp hrow).1, free, x, w, net, target, fits⟩
    · rintro ⟨notNull, _, free, x, w, net, target, fits⟩
      refine ⟨notNull, free, x, w, net, target, ?_, fits⟩
      rintro rfl
      -- The null wire would be the last of 2^32.
      have lt := hc.target_lt target
      have last : (Handle.null : Wire).index = UInt32.size - 1 := rfl
      omega

/-- The sample chip with a pip bound. -/
theorem reachable_predictable_sample :
    Chip.sample.chip.Built ∧ Chip.sample.chip.wires.length < UInt32.size ∧
    Reachable Chip.sample.chip.device (sample.run [.addNet ⟨2⟩, .bindPip ⟨0⟩ ⟨0⟩ .weak]) ∧
    Predictable Chip.sample.chip (sample.run [.addNet ⟨2⟩, .bindPip ⟨0⟩ ⟨0⟩ .weak]) :=
  ⟨Chip.sample_built, by decide, sample_reachable _,
    reachable_predictable Chip.sample_built (by decide) (sample_reachable _)⟩

end Fabric.Flow
