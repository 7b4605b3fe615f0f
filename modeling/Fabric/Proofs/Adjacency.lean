import Fabric.Proofs.Chip
/-!
The pips at the wires. A wire lists the pips that it drives and those that drive it, in the order of
the table of pips; a pip from a wire to itself is in both lists. A new pip is appended at its two
ends, and a new wire starts with empty lists, since both ends of every pip are there before it.
-/

namespace Fabric

/-! ## Positions in a list -/

section
variable {α β : Type} {p : α → Bool} {l : List α}

/-- The positions of the elements with a property, in ascending order. -/
def positions (p : α → Bool) (l : List α) : List Nat :=
  (List.range l.length).filter fun i => l[i]?.any p

theorem mem_positions {i : Nat} : i ∈ positions p l ↔ ∃ a, l[i]? = some a ∧ p a = true := by
  simp only [positions, List.mem_filter, List.mem_range, Option.any_eq_true]
  constructor
  · rintro ⟨_, there⟩
    exact there
  · rintro ⟨a, at_i, pa⟩
    exact ⟨(List.getElem?_eq_some_iff.mp at_i).1, a, at_i, pa⟩

theorem positions_ascending (p : α → Bool) (l : List α) : (positions p l).Pairwise (· < ·) :=
  List.pairwise_lt_range.filter _

theorem positions_append (p : α → Bool) (l : List α) (a : α) :
    positions p (l ++ [a]) = positions p l ++ if p a = true then [l.length] else [] := by
  have earlier : (List.range l.length).filter (fun i => (l ++ [a])[i]?.any p) = positions p l := by
    refine List.filter_congr fun i hi => ?_
    rw [List.getElem?_append_left (List.mem_range.mp hi)]
  rw [positions, List.length_append, List.length_singleton, List.range_succ, List.filter_append,
    earlier]
  cases pa : p a <;> simp [pa]

theorem positions_eq_nil (h : ∀ a ∈ l, p a = false) : positions p l = [] := by
  refine List.eq_nil_iff_forall_not_mem.mpr fun i mem => ?_
  obtain ⟨a, at_i, pa⟩ := mem_positions.mp mem
  rw [h a (List.mem_of_getElem? at_i)] at pa
  cases pa

theorem positions_congr {q : β → Bool} {l' : List β} (same_length : l.length = l'.length)
    (same : ∀ (i : Nat) a b, l[i]? = some a → l'[i]? = some b → p a = q b) :
    positions p l = positions q l' := by
  rw [positions, positions, same_length]
  refine List.filter_congr fun i hi => ?_
  have lt' := List.mem_range.mp hi
  have lt : i < l.length := by omega
  rw [List.getElem?_eq_getElem lt, List.getElem?_eq_getElem lt']
  exact same i _ _ (List.getElem?_eq_getElem lt) (List.getElem?_eq_getElem lt')

end

/-! ## Pips at a wire -/

namespace Chip

variable {c : Chip} {row : PipRow} {i : Nat}

/-- The pips with an end at a wire, which is given by its position. -/
def pipsAt (c : Chip) (ends : PipRow → Wire) (i : Nat) : List Pip :=
  (positions (fun row => decide ((ends row).index = i)) c.pips).map .ofIndex

theorem pipsAt_appendPip (c : Chip) (row : PipRow) (ends : PipRow → Wire) (i : Nat) :
    (c.appendPip row).pipsAt ends i =
      c.pipsAt ends i ++ if (ends row).index = i then [.ofIndex c.pips.length] else [] := by
  rw [pipsAt, pipsAt, appendPip, positions_append, List.map_append]
  by_cases here : (ends row).index = i <;> simp [here]

/-- Rows may change in what is not this end. -/
theorem pipsAt_modify {ends : PipRow → Wire} {j : Nat} {f : PipRow → PipRow}
    (same : ∀ row, ends (f row) = ends row) :
    c.pipsAt ends i = pipsAt { c with pips := c.pips.modify j f } ends i := by
  refine congrArg (List.map _) (positions_congr (List.length_modify ..).symm ?_)
  intro n row row' at_n at_n'
  rw [List.getElem?_modify, at_n] at at_n'
  cases at_n'
  split
  · rw [same]
  · rfl

/-- The wires are the same but for the new pip at its ends. -/
theorem wires_appendPip {after : WireRow} (h : (c.appendPip row).wires[i]? = some after) :
    ∃ before, c.wires[i]? = some before ∧
      after.downhill = before.downhill ++
        (if row.source.index = i then [.ofIndex c.pips.length] else []) ∧
      after.uphill = before.uphill ++
        (if row.target.index = i then [.ofIndex c.pips.length] else []) := by
  simp only [appendPip, List.getElem?_modify, Option.map_eq_map, Option.map_map,
    Option.map_eq_some_iff] at h
  obtain ⟨before, at_i, rfl⟩ := h
  refine ⟨before, at_i, ?_⟩
  by_cases source : row.source.index = i <;> by_cases target : row.target.index = i <;>
    simp [source, target, addDownhill, addUphill]

/-- Every wire lists the pips that it drives, and those that drive it. -/
structure ListsPips (c : Chip) : Prop where
  inside : c.EndsInside
  downhill : ∀ {i row}, c.wires[i]? = some row → row.downhill = c.pipsAt (·.source) i
  uphill : ∀ {i row}, c.wires[i]? = some row → row.uphill = c.pipsAt (·.target) i

namespace ListsPips

theorem blank (family name : String) : ListsPips { Chip.blank name with family } where
  inside := nofun
  downhill := nofun
  uphill := nofun

/-- At a wire that is not there yet there are no pips. -/
theorem pipsAt_eq_nil (h : c.ListsPips) :
    c.pipsAt (·.source) c.wires.length = [] ∧ c.pipsAt (·.target) c.wires.length = [] := by
  constructor
  · refine List.map_eq_nil_iff.mpr (positions_eq_nil fun row mem => ?_)
    exact decide_eq_false (Nat.ne_of_lt (h.inside row mem).1)
  · refine List.map_eq_nil_iff.mpr (positions_eq_nil fun row mem => ?_)
    exact decide_eq_false (Nat.ne_of_lt (h.inside row mem).2)

theorem appendWire (h : c.ListsPips) {row : WireRow} (uphill : row.uphill = [])
    (downhill : row.downhill = []) : (c.appendWire row).ListsPips := by
  have inside : (c.appendWire row).EndsInside :=
    h.inside.of_pips_eq rfl (by simp [Chip.appendWire])
  -- A row of the longer table is an old one or the new one.
  have cases_of {i : Nat} {after : WireRow} (at_i : (c.appendWire row).wires[i]? = some after) :
      c.wires[i]? = some after ∨ i = c.wires.length ∧ after = row := by
    simp only [Chip.appendWire, List.getElem?_append, List.getElem?_singleton] at at_i
    split at at_i
    · exact .inl at_i
    · split at at_i
      · exact .inr ⟨by omega, (Option.some.inj at_i).symm⟩
      · cases at_i
  refine ⟨inside, fun at_i => ?_, fun at_i => ?_⟩
  · rcases cases_of at_i with old | ⟨rfl, rfl⟩
    · exact h.downhill old
    · exact downhill.trans h.pipsAt_eq_nil.1.symm
  · rcases cases_of at_i with old | ⟨rfl, rfl⟩
    · exact h.uphill old
    · exact uphill.trans h.pipsAt_eq_nil.2.symm

theorem appendPip (h : c.ListsPips) (source : row.source.index < c.wires.length)
    (target : row.target.index < c.wires.length) : (c.appendPip row).ListsPips := by
  refine ⟨h.inside.appendPip source target, fun at_i => ?_, fun at_i => ?_⟩
  · obtain ⟨before, there, downhill, _⟩ := wires_appendPip at_i
    rw [downhill, h.downhill there, pipsAt_appendPip]
  · obtain ⟨before, there, _, uphill⟩ := wires_appendPip at_i
    rw [uphill, h.uphill there, pipsAt_appendPip]

theorem patchWire (h : c.ListsPips) (j : Nat) {f : WireRow → WireRow}
    (same : ∀ row, (f row).uphill = row.uphill ∧ (f row).downhill = row.downhill) :
    ListsPips { c with wires := c.wires.modify j f } := by
  have inside : EndsInside { c with wires := c.wires.modify j f } :=
    h.inside.of_pips_eq rfl (by simp)
  -- A row of the patched table has the lists of an old row.
  have old {i : Nat} {after : WireRow} (at_i : (c.wires.modify j f)[i]? = some after) :
      ∃ before, c.wires[i]? = some before ∧ after.uphill = before.uphill ∧
        after.downhill = before.downhill := by
    rw [List.getElem?_modify] at at_i
    obtain ⟨before, there, rfl⟩ := Option.map_eq_some_iff.mp at_i
    refine ⟨before, there, ?_⟩
    split
    · exact same before
    · exact ⟨rfl, rfl⟩
  refine ⟨inside, fun at_i => ?_, fun at_i => ?_⟩
  · obtain ⟨before, there, _, downhill⟩ := old at_i
    exact downhill.trans (h.downhill there)
  · obtain ⟨before, there, uphill, _⟩ := old at_i
    exact uphill.trans (h.uphill there)

theorem patchPip (h : c.ListsPips) (j : Nat) {f : PipRow → PipRow}
    (same : ∀ row, (f row).source = row.source ∧ (f row).target = row.target) :
    ListsPips { c with pips := c.pips.modify j f } where
  inside := h.inside.patchPip j same
  downhill at_i := (h.downhill at_i).trans (pipsAt_modify fun row => (same row).1)
  uphill at_i := (h.uphill at_i).trans (pipsAt_modify fun row => (same row).2)

theorem edited {c' : Chip} {edit : Edit} {reply : Reply} (h : c.ListsPips)
    (edited : Edited c edit reply c') : c'.ListsPips := by
  cases edited with
  | addSite => exact ⟨h.inside, h.downhill, h.uphill⟩
  | addWire _ _ uphill downhill => exact h.appendWire uphill downhill
  | addPip _ _ source target => exact h.appendPip source target
  | setHidden => exact ⟨h.inside, h.downhill, h.uphill⟩
  | setGlobalBuffer => exact ⟨h.inside, h.downhill, h.uphill⟩
  | patchSite => exact ⟨h.inside, h.downhill, h.uphill⟩
  | patchWire same => exact h.patchWire _ fun row => (same row).2
  | patchPip same => exact h.patchPip _ fun row => (same row).2

end ListsPips

theorem Grows.listsPips {family name : String} (h : Grows { Chip.blank name with family } c) :
    c.ListsPips :=
  h.invariant (.blank family name) .edited

end Chip

end Fabric
