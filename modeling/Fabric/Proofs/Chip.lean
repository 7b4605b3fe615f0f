import Fabric.Proofs.Growth
/-!
The chips there are: those that additions, flag changes and patches make of a blank chip, and those
that a description describes. Both ends of each of their pips are wires of the chip, so that as a
device such a chip has all wires that its pips drive.
-/

namespace Fabric

/-- Every wire that a pip drives is a wire of the device, or the null wire. -/
def Device.TargetsInside {β : Type} [BucketKey β] (d : Device β) : Prop :=
  ∀ p w, d.target p = .ok w → d.hasWire w = true ∨ w = .null

namespace Chip

/-- The chips that additions, changes of flags, patches and descriptions lead to. The interner of a
draft may be another one in each step. -/
inductive Built : Chip → Prop
  | blank (name : String) : Built (blank name)
  | addSite {d : Draft} (h : Built d.chip) (name type : String) :
      Built (d.addSite name type).state.chip
  | addWire {d : Draft} (h : Built d.chip) (name : String) (type : Option String) :
      Built (d.addWire name type).state.chip
  | addPip {d : Draft} (h : Built d.chip) (name : String) (source target : Wire) :
      Built (d.addPip name source target).state.chip
  | setHidden {c c'} (h : Built c) {s hidden} (hc : c.setHidden s hidden = .ok c') : Built c'
  | setGlobalBuffer {c c'} (h : Built c) {s globalBuffer}
      (hc : c.setGlobalBuffer s globalBuffer = .ok c') : Built c'
  | patchSite {d d' : Draft} (h : Built d.chip) {s hidden globalBuffer given}
      (hd : d.patchSite s hidden globalBuffer given = .ok d') : Built d'.chip
  | patchWire {d d' : Draft} (h : Built d.chip) {w given} (hd : d.patchWire w given = .ok d') :
      Built d'.chip
  | patchPip {d d' : Draft} (h : Built d.chip) {p type given}
      (hd : d.patchPip p type given = .ok d') : Built d'.chip
  | ofDescription {names description d}
      (h : Draft.ofDescription names description = .ok d) : Built d.chip

/-- Both ends of every pip are wires of the chip. -/
def EndsInside (c : Chip) : Prop :=
  ∀ row ∈ c.pips, row.source.index < c.wires.length ∧ row.target.index < c.wires.length

namespace EndsInside

variable {c : Chip}

theorem of_pips_eq {c' : Chip} (h : c.EndsInside) (hp : c'.pips = c.pips)
    (hw : c.wires.length ≤ c'.wires.length) : c'.EndsInside := by
  intro row hr
  rw [hp] at hr
  have := h row hr
  omega

theorem appendPip (h : c.EndsInside) {row : PipRow} (hs : row.source.index < c.wires.length)
    (ht : row.target.index < c.wires.length) : (c.appendPip row).EndsInside := by
  intro r hr
  simp only [Chip.appendPip, List.length_modify, List.mem_append, List.mem_singleton] at hr ⊢
  rcases hr with hr | rfl
  · exact h r hr
  · exact ⟨hs, ht⟩

/-- A row of a patched table has the ends of an old row. -/
theorem patchPip (h : c.EndsInside) (i : Nat) {f : PipRow → PipRow}
    (same : ∀ row, (f row).source = row.source ∧ (f row).target = row.target) :
    EndsInside { c with pips := c.pips.modify i f } := by
  intro r hr
  obtain ⟨j, at_j⟩ := List.mem_iff_getElem?.mp hr
  rw [List.getElem?_modify] at at_j
  obtain ⟨row, there, rfl⟩ := Option.map_eq_some_iff.mp at_j
  have inside := h row (List.mem_of_getElem? there)
  split
  · rwa [(same row).1, (same row).2]
  · exact inside

theorem edited {c' : Chip} {edit : Edit} {reply : Reply} (h : c.EndsInside)
    (edited : Edited c edit reply c') : c'.EndsInside := by
  cases edited with
  | addSite => exact h.of_pips_eq rfl (Nat.le_refl _)
  | addWire => exact h.of_pips_eq rfl (by simp [Chip.appendWire])
  | addPip _ _ source target => exact h.appendPip source target
  | setHidden => exact h.of_pips_eq rfl (Nat.le_refl _)
  | setGlobalBuffer => exact h.of_pips_eq rfl (Nat.le_refl _)
  | patchSite => exact h.of_pips_eq rfl (Nat.le_refl _)
  | patchWire => exact h.of_pips_eq rfl (by simp)
  | patchPip same => exact h.patchPip _ fun row => (same row).2

end EndsInside

theorem exists_grows_trans {c c' : Chip}
    (h : ∃ family name, Grows { Chip.blank name with family } c) (h' : Grows c c') :
    ∃ family name, Grows { Chip.blank name with family } c' := by
  obtain ⟨family, name, grows⟩ := h
  exact ⟨family, name, grows.trans h'⟩

/-- Every chip there is grows from a blank one. -/
theorem Built.grows {c : Chip} (h : c.Built) :
    ∃ family name, Grows { Chip.blank name with family } c := by
  induction h with
  | blank name => exact ⟨defaultFamily, name, .refl _⟩
  | @addSite d _ name type ih => exact exists_grows_trans ih (.addSite d name type)
  | @addWire d _ name type ih => exact exists_grows_trans ih (.addWire d name type)
  | @addPip d _ name source target ih => exact exists_grows_trans ih (.addPip d name source target)
  | setHidden _ set ih => exact exists_grows_trans ih (.setHidden set)
  | setGlobalBuffer _ set ih => exact exists_grows_trans ih (.setGlobalBuffer set)
  | patchSite _ patch ih => exact exists_grows_trans ih (.patchSite patch)
  | patchWire _ patch ih => exact exists_grows_trans ih (.patchWire patch)
  | patchPip _ patch ih => exact exists_grows_trans ih (.patchPip patch)
  | ofDescription described => exact ⟨_, _, .ofDescription described⟩

theorem Built.endsInside {c : Chip} (h : c.Built) : c.EndsInside := by
  obtain ⟨family, name, grows⟩ := h.grows
  exact grows.invariant (nofun : EndsInside { Chip.blank name with family }) .edited

theorem target_eq_ok {c : Chip} {p : Pip} {w : Wire} (h : c.device.target p = .ok w) :
    ∃ row ∈ c.pips, c.pip? p = some row ∧ row.target = w := by
  simp only [device, pip] at h
  split at h
  next row hr =>
    cases h
    exact ⟨row, List.mem_of_getElem? hr, hr, rfl⟩
  · cases h

theorem Built.target_lt {c : Chip} (h : c.Built) {p : Pip} {w : Wire}
    (ht : c.device.target p = .ok w) : w.index < c.wires.length := by
  obtain ⟨row, hr, _, rfl⟩ := target_eq_ok ht
  exact (h.endsInside row hr).2

theorem Built.targetsInside {c : Chip} (h : c.Built) : c.device.TargetsInside := by
  intro p w ht
  left
  exact decide_eq_true (h.target_lt ht)

/-! ## A small chip -/

/-- Three wires, with a pip from the first to the second, and one site. -/
def sample : Draft :=
  let d : Draft := ⟨∅, Chip.blank "sample"⟩
  let d := (d.addSite "A" "LUT").state
  let d := (d.addWire "W0" none).state
  let d := (d.addWire "W1" none).state
  let d := (d.addWire "W2" none).state
  (d.addPip "P0" ⟨0⟩ ⟨1⟩).state

theorem sample_built : sample.chip.Built := by
  unfold sample
  refine .addPip (.addWire (.addWire (.addWire (.addSite ?_ _ _) _ _) _ _) _ _) _ _ _
  exact .blank "sample"

end Chip

end Fabric
