import Fabric.Device.Listed
import Fabric.Proofs.Consistency
/-!
Membership. Whatever netlists a layout is used with, the bound sites are sites of its device. A wire
becomes bound in two ways: directly, which the device must allow, or as the wire that a pip drives,
which nobody checks. So the bound wires are wires of the device exactly as long as it does not say
of a pip that it drives a wire that the device does not have.
-/

namespace Fabric

variable {β : Type} [BucketKey β]

/-- Every wire that a pip drives is a wire of the device. Null handles, which are never bound, do
not count. -/
def Device.DrivesInside (d : Device β) : Prop :=
  ∀ p w, p ≠ .null → w ≠ .null → d.target p = .ok w → d.hasWire w = true

theorem Device.TargetsInside.drivesInside {d : Device β} (h : d.TargetsInside) :
    d.DrivesInside := by
  intro p w _ hw target
  exact (h p w target).resolve_right hw

/-! ## Sites -/

theorem Owners.SitesInside.orphan {d : Device β} {l l' : Ledger} {o : Operation}
    (h : l.owners.SitesInside d) (ho : Orphan d l o l') : l'.owners.SitesInside d := by
  intro s' c' hc
  cases ho with
  | unbindSite notNull owned gone =>
    rw [Ledger.site?_freeSite] at hc
    split at hc
    · cases hc
    · exact h s' c' hc
  | unbindPip notNull target owned target_owned gone => exact h s' c' hc

theorem Layout.ReachedOn.sitesInside {d : Device β} {l : Layout β} (h : l.ReachedOn d) :
    l.owners.SitesInside d :=
  h.invariant (P := fun o => o.SitesInside d) nofun (fun hs he => hs.effect he)
    fun hs ho => hs.orphan ho

/-! ## Wires -/

/-- A bound wire is a wire of the device, or one that a pip drives. -/
def Owners.WiresKnown (d : Device β) (o : Owners) : Prop :=
  ∀ w n, o.wire? w = some n → w ≠ .null ∧
    (d.hasWire w = true ∨ ∃ p, p ≠ .null ∧ d.target p = .ok w)

namespace Owners.WiresKnown

variable {d : Device β} {l l' : Ledger}

theorem take (h : l.owners.WiresKnown d) (n : NetRef) (x : Net) {w : Wire} (u : WireUse)
    (notNull : w ≠ .null) (known : d.hasWire w = true ∨ ∃ p, p ≠ .null ∧ d.target p = .ok w) :
    (l.take n x w u).owners.WiresKnown d := by
  intro w' n' hn
  rw [Ledger.wire?_take] at hn
  split at hn
  next e => exact e ▸ ⟨notNull, known⟩
  · exact h w' n' hn

theorem release (h : l.owners.WiresKnown d) (n : NetRef) (x : Net) (w : Wire)
    (driver : Option Pip) : (l.release n x w driver).owners.WiresKnown d := by
  intro w' n' hn
  rw [Ledger.wire?_release] at hn
  split at hn
  · cases hn
  · exact h w' n' hn

theorem effect {o : Operation} {reply : Reply} {changes : List Change}
    (h : l.owners.WiresKnown d) (he : Effect d l o reply changes l') : l'.owners.WiresKnown d := by
  cases he with
  | addCell name type => exact h
  | addNet name => exact h
  | bindSite inside can strength => exact h
  | unbindSite can => exact h
  | bindWire inside can strength => exact h.take _ _ _ can.notNull (.inl inside)
  | unbindWire can => exact h.release _ _ _ _
  | bindPip target can strength =>
    exact h.take _ _ _ can.target_notNull (.inr ⟨_, can.notNull, target⟩)
  | unbindPip target can => exact h.release _ _ _ _

theorem orphan {o : Operation} (h : l.owners.WiresKnown d) (ho : Orphan d l o l') :
    l'.owners.WiresKnown d := by
  cases ho with
  | unbindSite notNull owned gone => exact h
  | unbindPip notNull target owned target_owned gone =>
    intro w' n' hn
    rw [Ledger.wire?_freeWire] at hn
    split at hn
    · cases hn
    · exact h w' n' hn

end Owners.WiresKnown

theorem Layout.ReachedOn.wiresKnown {d : Device β} {l : Layout β} (h : l.ReachedOn d) :
    l.owners.WiresKnown d :=
  h.invariant (P := fun o => o.WiresKnown d) nofun (fun hw he => hw.effect he)
    fun hw ho => hw.orphan ho

theorem Layout.ReachedOn.wiresInside {d : Device β} (hd : d.DrivesInside) {l : Layout β}
    (h : l.ReachedOn d) : l.owners.WiresInside d := by
  intro w n owned
  obtain ⟨notNull, inside | ⟨p, hp, target⟩⟩ := h.wiresKnown w n owned
  · exact inside
  · exact hd p w hp notNull target

/-- On a fresh layout any pip can be bound, and its wire is bound with it. -/
theorem Layout.exists_bound_target {d : Device β} {names : Interner} {watched : Bool}
    {l : Layout β} (h : Layout.ofDevice d names watched = .ok l) {p : Pip} {w : Wire}
    (hp : p ≠ .null) (hw : w ≠ .null) (target : d.target p = .ok w) :
    ∃ l' : Layout β, l'.ReachedOn d ∧ ∃ n, l'.owners.wire? w = some n := by
  obtain ⟨hd, nothing, _⟩ := Layout.eq_of_ofDevice h
  let f : Flow β := ⟨l, ∅⟩
  let m : Netlist := ((∅ : Netlist).addNet ⟨0⟩).2
  have add : Effect f.layout.device f.ledger (.addNet ⟨0⟩) _ [] ⟨l.owners, m⟩ := .addNet ⟨0⟩
  have can : Ledger.CanBindPip ⟨l.owners, m⟩ p w (.ofIndex 0) ⟨.ofIndex 0, ⟨0⟩, ∅⟩ := by
    rw [nothing]
    exact ⟨hp, hw, rfl, rfl, nofun⟩
  obtain ⟨_, ledger⟩ := Flow.run_of_effects add (.bindPip (hd ▸ target) can .weak)
  have bound := congrArg (·.owners.wire? w) ledger
  have reachable : Flow.Reachable d f := .fresh h
  exact ⟨_, (reachable.run _).reachedOn, .ofIndex 0, bound.trans (by simp)⟩

/-! ## Audits -/

theorem Flow.checkSitesInside_eq_ok_iff {f : Flow β} :
    checkAll f.auditSiteInside f.layout.owners.ofSite.entries = .ok () ↔
      f.layout.owners.SitesInside f.layout.device := by
  simp only [checkAll_walk_iff (.refl _), auditSiteInside_eq_ok_iff]
  rfl

theorem Flow.checkWiresInside_eq_ok_iff {f : Flow β} :
    checkAll f.auditWireInside f.layout.owners.ofWire.entries = .ok () ↔
      f.layout.owners.WiresInside f.layout.device := by
  simp only [checkAll_walk_iff (.refl _), auditWireInside_eq_ok_iff]
  rfl

/-- On every device that can be laid out all bound sites are sites of the device, and no audit finds
one that is not. The same holds of the wires exactly if no pip drives a wire that the device does
not have; every chip is such a device. -/
theorem Layout.bound_inside_iff {d : Device β} {names : Interner} {watched : Bool}
    {fresh : Layout β} (h : Layout.ofDevice d names watched = .ok fresh) :
    (∀ l : Layout β, l.ReachedOn d → l.owners.SitesInside d ∧
      ∀ m, checkAll (⟨l, m⟩ : Flow β).auditSiteInside l.owners.ofSite.entries = .ok ()) ∧
    ((∀ l : Layout β, l.ReachedOn d → l.owners.WiresInside d) ↔ d.DrivesInside) ∧
    ((∀ l : Layout β, l.ReachedOn d →
      ∀ m, checkAll (⟨l, m⟩ : Flow β).auditWireInside l.owners.ofWire.entries = .ok ()) ↔
      d.DrivesInside) ∧
    ∀ c : Chip, c.Built → c.device.DrivesInside := by
  have wires : (∀ l : Layout β, l.ReachedOn d → l.owners.WiresInside d) ↔ d.DrivesInside := by
    constructor
    · intro inside p w hp hw target
      obtain ⟨l, hl, n, owned⟩ := exists_bound_target h hp hw target
      exact inside l hl w n owned
    · intro hd l hl
      exact hl.wiresInside hd
  refine ⟨?_, wires, ?_, fun c hc => hc.targetsInside.drivesInside⟩
  · intro l hl
    refine ⟨hl.sitesInside, fun m => ?_⟩
    exact Flow.checkSitesInside_eq_ok_iff.mpr (hl.device_eq.symm ▸ hl.sitesInside)
  · rw [← wires]
    constructor
    · intro passes l hl
      exact hl.device_eq ▸ Flow.checkWiresInside_eq_ok_iff.mp (passes l hl ∅)
    · intro inside l hl m
      exact Flow.checkWiresInside_eq_ok_iff.mpr (hl.device_eq.symm ▸ inside l hl)

/-- On the sample chip every bound site and wire is inside. -/
theorem Layout.bound_inside_sample :
    Layout.ofDevice Chip.sample.chip.device Chip.sample.names true = .ok Flow.sample.layout ∧
    ∀ l : Layout Symbol, l.ReachedOn Chip.sample.chip.device →
      l.owners.WiresInside Chip.sample.chip.device :=
  ⟨Flow.ofDevice_sample, (bound_inside_iff Flow.ofDevice_sample).2.1.mpr
    Chip.sample_built.targetsInside.drivesInside⟩

namespace Flow

/-- The watched flow of a device with one wire and a pip that drives another wire. -/
def stray : Flow Symbol :=
  ⟨⟨(⟨"f", "t", [], [⟨0⟩], (∅ : SortedMap Pip Wire).insert ⟨0⟩ ⟨7⟩⟩ : Listing).device, [], ⟨∅⟩, ∅,
    some []⟩, ∅⟩

/-- A wire that the device does not have is bound as the target of a pip, and an audit finds it. -/
theorem bindPip_stray :
    Reachable stray.layout.device (stray.run [.addNet ⟨0⟩, .bindPip ⟨0⟩ ⟨0⟩ .weak]) ∧
    (stray.run [.addNet ⟨0⟩, .bindPip ⟨0⟩ ⟨0⟩ .weak]).layout.owners.wire? ⟨7⟩ = some ⟨0⟩ ∧
    stray.layout.device.hasWire ⟨7⟩ = false ∧
    (stray.run [.addNet ⟨0⟩, .bindPip ⟨0⟩ ⟨0⟩ .weak]).audit =
      .error (.found (.wireOutside ⟨7⟩ "t")) := by
  have fresh : Layout.ofDevice stray.layout.device ∅ true = .ok stray.layout := rfl
  have h : Reachable stray.layout.device stray := .fresh fresh
  exact ⟨h.run _, rfl, rfl, rfl⟩

end Flow

end Fabric
