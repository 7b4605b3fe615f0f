import Fabric.Proofs.Counts
import Mathlib.Data.List.Dedup
/-!
Pips behind a passed audit of the ledger. Of sites and wires the audit checks both directions, of
pips only one: what a net records is bound to it. A bound pip that no net records any more passes.
So the records tell what is bound exactly if there are as many of them as bound pips. The audit of a
flow looks at every bound pip and finds the others.
-/

namespace Fabric

variable {β : Type} [BucketKey β]

/-- A pip is bound to a net exactly if the net records it as the driver of a wire. -/
def Ledger.PipsRecorded (l : Ledger) : Prop :=
  ∀ p n, l.owners.pip? p = some n ↔ ∃ w, l.netlist.driver? n w = some p

namespace Ledger

variable {l : Ledger}

/-- Where every recorded pip is bound, the bound pips are recorded if they are as many. -/
theorem pipsRecorded_iff_size (tail : l.netlist.TailBlank)
    (bound : ∀ n w p, l.netlist.driver? n w = some p → l.owners.pip? p = some n) :
    l.PipsRecorded ↔ l.owners.ofPip.size = l.netlist.drivers.dedup.length := by
  rw [← SortedMap.length_keys]
  constructor
  · intro recorded
    apply List.Perm.length_eq
    rw [List.perm_ext_iff_of_nodup (SortedMap.nodup_keys _) (List.nodup_dedup _)]
    intro p
    rw [SortedMap.mem_keys_iff_get?, List.mem_dedup, Netlist.mem_drivers tail]
    exact exists_congr (recorded p)
  · intro size p n
    have subset : l.netlist.drivers.dedup ⊆ l.owners.ofPip.keys := by
      intro q hq
      obtain ⟨m, w, hd⟩ := (Netlist.mem_drivers tail).mp (List.mem_dedup.mp hq)
      exact (SortedMap.mem_keys_iff_get? _ q).mpr ⟨m, bound m w q hd⟩
    have perm : l.netlist.drivers.dedup.Perm l.owners.ofPip.keys :=
      (List.subperm_of_subset (List.nodup_dedup _) subset).perm_of_length_le (Nat.le_of_eq size)
    constructor
    · intro owned
      have listed := perm.symm.subset ((SortedMap.mem_keys_iff_get? _ p).mpr ⟨n, owned⟩)
      obtain ⟨m, w, hd⟩ := (Netlist.mem_drivers tail).mp (List.mem_dedup.mp listed)
      cases owned.symm.trans (bound m w p hd)
      exact ⟨w, hd⟩
    · rintro ⟨w, hd⟩
      exact bound n w p hd

end Ledger

namespace Flow

variable {f : Flow β}

theorem Agrees.pipsRecorded (h : f.Agrees) : f.ledger.PipsRecorded := by
  intro p n
  constructor
  · intro owned
    obtain ⟨w, _, _, hd⟩ := h.pip p n owned
    exact ⟨w, hd⟩
  · rintro ⟨w, hd⟩
    exact h.driver n w p hd

/-- After a passed audit of the ledger every recorded pip is bound to its net. That every bound pip
is recorded amounts to as many recorded as bound pips. It holds where the audit of the flow passes,
and on one netlist that is not changed by hand. -/
theorem audited_pips (hm : f.netlist.Built) (passes : f.ledger.audit = .ok ()) :
    (∀ n w p, f.netlist.driver? n w = some p → f.layout.owners.pip? p = some n) ∧
    (f.ledger.PipsRecorded ↔
      f.layout.owners.ofPip.size = f.netlist.drivers.dedup.length) ∧
    (f.audit = .ok () → f.ledger.PipsRecorded) ∧
    ∀ d, Reachable d f → f.ledger.PipsRecorded := by
  obtain ⟨_, _, bound⟩ := (f.ledger.audit_eq_ok_iff hm.tail).mp passes
  refine ⟨bound, Ledger.pipsRecorded_iff_size hm.tail bound, ?_, ?_⟩
  · intro all
    exact ((audit_eq_ok_iff hm.tail).mp all).pipsRecorded
  · intro d h
    exact h.consistent.pip_iff_recorded

/-- The sample chip with a net that is routed through its pip. -/
def piped : Flow Symbol := sample.run [.addNet ⟨2⟩, .bindPip ⟨0⟩ ⟨0⟩ .weak]

theorem audited_pips_piped :
    piped.netlist.Built ∧ piped.ledger.audit = .ok () ∧ piped.ledger.PipsRecorded := by
  have hm : piped.netlist.Built := (sample_reachable _).built
  exact ⟨hm, rfl, (audited_pips hm rfl).2.1.mpr rfl⟩

/-- The wire is entered by hand as one in direct use. -/
def forgotten : Flow Symbol where
  layout := piped.layout
  netlist := piped.netlist.setNet ⟨0⟩
    ⟨⟨0⟩, ⟨2⟩, (∅ : SortedMap Wire WireUse).insert ⟨1⟩ ⟨none, .weak⟩⟩

/-- A passed audit of the ledger does not say that a bound pip is recorded. Only the audit of the
flow finds it. -/
theorem audit_forgotten :
    piped.netlist.enterWire ⟨0⟩ ⟨1⟩ ⟨none, .weak⟩ = .ok (true, forgotten.netlist) ∧
    forgotten.layout.Reached ∧ forgotten.netlist.Built ∧ forgotten.ledger.audit = .ok () ∧
    forgotten.layout.owners.pip? ⟨0⟩ = some ⟨0⟩ ∧
    (¬ ∃ n w, forgotten.netlist.driver? n w = some ⟨0⟩) ∧
    forgotten.audit = .error (.found (.driverNotRecorded ⟨0⟩ ⟨0⟩ ⟨1⟩)) := by
  have h : Reachable Chip.sample.chip.device piped := sample_reachable _
  have hm : forgotten.netlist.Built := h.built.setNet _ _
  refine ⟨rfl, h.reached, hm, rfl, rfl, ?_, rfl⟩
  rw [← Netlist.mem_drivers hm.tail]
  exact List.not_mem_nil

end Flow

end Fabric
