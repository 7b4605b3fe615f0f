import Fabric.Netlist
/-!
Netlists by what one can look up in them: the site of a cell, and how a net uses a wire. A change by
hand of one cell or net leaves the others alone. Handles reach only the first 2^32 entries of a
table, so those behind them stay as they were added (`Netlist.Built.tail`).
-/

namespace Fabric

namespace SortedMap

variable {κ ν : Type} [Ord κ]

theorem contains_iff {m : SortedMap κ ν} {k : κ} : m.contains k = true ↔ ∃ v, m.get? k = some v :=
  Option.isSome_iff_exists

end SortedMap

namespace Netlist

/-! ## Views -/

/-- The site of a cell, if there is the cell and it is placed. -/
def siteOf? (m : Netlist) (c : CellRef) : Option Site := (m.cell? c).bind (·.site)

/-- How a net uses a wire, if there is the net and it lists the wire. -/
def use? (m : Netlist) (n : NetRef) (w : Wire) : Option WireUse :=
  (m.net? n).bind (·.wires.get? w)

/-- The pip that a net records as the driver of a wire. -/
def driver? (m : Netlist) (n : NetRef) (w : Wire) : Option Pip := (m.use? n w).bind (·.driver)

theorem siteOf?_eq_some {m : Netlist} {c : CellRef} {s : Site} :
    m.siteOf? c = some s ↔ ∃ x, m.cell? c = some x ∧ x.site = some s := by
  simp [siteOf?, Option.bind_eq_some_iff]

theorem use?_eq_some {m : Netlist} {n : NetRef} {w : Wire} {u : WireUse} :
    m.use? n w = some u ↔ ∃ x, m.net? n = some x ∧ x.wires.get? w = some u := by
  simp [use?, Option.bind_eq_some_iff]

theorem driver?_eq_some {m : Netlist} {n : NetRef} {w : Wire} {p : Pip} :
    m.driver? n w = some p ↔ ∃ u, m.use? n w = some u ∧ u.driver = some p := by
  simp [driver?, Option.bind_eq_some_iff]

theorem use?_of_net? {m : Netlist} {n : NetRef} {x : Net} (h : m.net? n = some x) (w : Wire) :
    m.use? n w = x.wires.get? w := by
  simp [use?, h]

theorem driver?_of_net? {m : Netlist} {n : NetRef} {x : Net} (h : m.net? n = some x) (w : Wire) :
    m.driver? n w = x.driver? w := by
  rw [driver?, use?_of_net? h]
  rfl

/-! ## Changes by hand -/

/-- What a change of one element does not touch is the same for the whole list. -/
theorem map_set_eq_map {α γ : Type} {g : α → γ} {l : List α} {i : Nat} {a b : α}
    (h : l[i]? = some a) (same : g b = g a) : (l.set i b).map g = l.map g := by
  obtain ⟨lt, rfl⟩ := List.getElem?_eq_some_iff.mp h
  apply List.ext_getElem
  · simp
  · intro j _ _
    by_cases hj : i = j
    · subst hj
      simp [same]
    · simp [List.getElem_set_ne hj]

theorem id_of_cell? {m : Netlist} {c : CellRef} {x : Cell} (h : m.cell? c = some x) : x.id = c :=
  m.cell_ids.id_eq h

theorem id_of_net? {m : Netlist} {n : NetRef} {x : Net} (h : m.net? n = some x) : x.id = n :=
  m.net_ids.id_eq h

theorem cells_setCell {m : Netlist} {c : CellRef} {y : Cell} (h : m.cell? c = some y) (x : Cell)
    (same : x.id = y.id) : (m.setCell c x).cells = m.cells.set c.index x := by
  have kept : { x with id := c } = x := by rw [← id_of_cell? h, ← same]
  exact congrArg (m.cells.set c.index) kept

theorem nets_setNet {m : Netlist} {n : NetRef} {y : Net} (h : m.net? n = some y) (x : Net)
    (same : x.id = y.id) : (m.setNet n x).nets = m.nets.set n.index x := by
  have kept : { x with id := n } = x := by rw [← id_of_net? h, ← same]
  exact congrArg (m.nets.set n.index) kept

theorem cell?_setCell {m : Netlist} {c : CellRef} {y : Cell} (h : m.cell? c = some y) (x : Cell)
    (c' : CellRef) :
    (m.setCell c x).cell? c' = if c' = c then some { x with id := c } else m.cell? c' := by
  obtain ⟨hlt, _⟩ := List.getElem?_eq_some_iff.mp h
  by_cases e : c' = c
  · subst e
    simp [cell?, setCell, hlt]
  · have hne : c.index ≠ c'.index := fun he => e (Handle.index_inj.mp he).symm
    simp [cell?, setCell, e, List.getElem?_set_ne hne]

theorem net?_setNet {m : Netlist} {n : NetRef} {y : Net} (h : m.net? n = some y) (x : Net)
    (n' : NetRef) :
    (m.setNet n x).net? n' = if n' = n then some { x with id := n } else m.net? n' := by
  obtain ⟨hlt, _⟩ := List.getElem?_eq_some_iff.mp h
  by_cases e : n' = n
  · subst e
    simp [net?, setNet, hlt]
  · have hne : n.index ≠ n'.index := fun he => e (Handle.index_inj.mp he).symm
    simp [net?, setNet, e, List.getElem?_set_ne hne]

theorem cell?_setCell_self {m : Netlist} {c : CellRef} {x y : Cell} (h : m.cell? c = some y)
    (same : x.id = y.id) : (m.setCell c x).cell? c = some x := by
  rw [cell?_setCell h, if_pos rfl, ← id_of_cell? h, ← same]

theorem net?_setNet_self {m : Netlist} {n : NetRef} {x y : Net} (h : m.net? n = some y)
    (same : x.id = y.id) : (m.setNet n x).net? n = some x := by
  rw [net?_setNet h, if_pos rfl, ← id_of_net? h, ← same]

@[simp] theorem net?_setCell (m : Netlist) (c : CellRef) (x : Cell) (n : NetRef) :
    (m.setCell c x).net? n = m.net? n := rfl

@[simp] theorem cell?_setNet (m : Netlist) (n : NetRef) (x : Net) (c : CellRef) :
    (m.setNet n x).cell? c = m.cell? c := rfl

@[simp] theorem use?_setCell (m : Netlist) (c : CellRef) (x : Cell) (n : NetRef) (w : Wire) :
    (m.setCell c x).use? n w = m.use? n w := rfl

@[simp] theorem siteOf?_setNet (m : Netlist) (n : NetRef) (x : Net) (c : CellRef) :
    (m.setNet n x).siteOf? c = m.siteOf? c := rfl

theorem siteOf?_setCell {m : Netlist} {c : CellRef} {y : Cell} (h : m.cell? c = some y) (x : Cell)
    (c' : CellRef) : (m.setCell c x).siteOf? c' = if c' = c then x.site else m.siteOf? c' := by
  rw [siteOf?, cell?_setCell h]
  split <;> rfl

theorem use?_setNet {m : Netlist} {n : NetRef} {y : Net} (h : m.net? n = some y) (x : Net)
    (n' : NetRef) (w : Wire) :
    (m.setNet n x).use? n' w = if n' = n then x.wires.get? w else m.use? n' w := by
  rw [use?, net?_setNet h]
  split <;> rfl

theorem setCell_setCell (m : Netlist) (c : CellRef) (x y : Cell) :
    (m.setCell c x).setCell c y = m.setCell c y := by
  simp [setCell]

theorem setNet_setNet (m : Netlist) (n : NetRef) (x y : Net) :
    (m.setNet n x).setNet n y = m.setNet n y := by
  simp [setNet]

theorem setCell_of_cell? {m : Netlist} {c : CellRef} {x : Cell} (h : m.cell? c = some x) :
    m.setCell c x = m := by
  obtain ⟨hlt, e⟩ := List.getElem?_eq_some_iff.mp h
  refine Netlist.ext ((cells_setCell h x rfl).trans ?_) rfl
  exact e ▸ List.set_getElem_self hlt

theorem setNet_of_net? {m : Netlist} {n : NetRef} {x : Net} (h : m.net? n = some x) :
    m.setNet n x = m := by
  obtain ⟨hlt, e⟩ := List.getElem?_eq_some_iff.mp h
  refine Netlist.ext rfl ((nets_setNet h x rfl).trans ?_)
  exact e ▸ List.set_getElem_self hlt

/-! ## Additions -/

@[simp] theorem use?_addCell (m : Netlist) (name type : Symbol) (n : NetRef) (w : Wire) :
    (m.addCell name type).2.use? n w = m.use? n w := rfl

@[simp] theorem siteOf?_addNet (m : Netlist) (name : Symbol) (c : CellRef) :
    (m.addNet name).2.siteOf? c = m.siteOf? c := rfl

/-- A new cell is on no site. -/
@[simp] theorem siteOf?_addCell (m : Netlist) (name type : Symbol) (c : CellRef) :
    (m.addCell name type).2.siteOf? c = m.siteOf? c := by
  simp only [siteOf?, cell?, addCell, List.getElem?_append, List.getElem?_singleton]
  split
  · rfl
  · next h =>
    rw [List.getElem?_eq_none (by omega)]
    split <;> rfl

/-- A new net lists no wire. -/
@[simp] theorem use?_addNet (m : Netlist) (name : Symbol) (n : NetRef) (w : Wire) :
    (m.addNet name).2.use? n w = m.use? n w := by
  simp only [use?, net?, addNet, List.getElem?_append, List.getElem?_singleton]
  split
  · rfl
  · next h =>
    rw [List.getElem?_eq_none (by omega)]
    split <;> rfl

/-! ## The entries that no handle reaches -/

/-- Behind the entries that handles reach there are only unplaced cells and nets without wires. -/
structure TailBlank (m : Netlist) : Prop where
  cells : ∀ i x, m.cells[i]? = some x → UInt32.size ≤ i → x.site = none
  nets : ∀ i x, m.nets[i]? = some x → UInt32.size ≤ i → x.wires = ∅

theorem TailBlank.empty : TailBlank ∅ := ⟨nofun, nofun⟩

theorem TailBlank.addCell {m : Netlist} (h : m.TailBlank) (name type : Symbol) :
    (m.addCell name type).2.TailBlank := by
  refine ⟨?_, h.nets⟩
  intro i x hx hi
  simp only [Netlist.addCell, List.getElem?_append, List.getElem?_singleton] at hx
  split at hx
  · exact h.cells i x hx hi
  · split at hx
    · cases hx
      rfl
    · cases hx

theorem TailBlank.addNet {m : Netlist} (h : m.TailBlank) (name : Symbol) :
    (m.addNet name).2.TailBlank := by
  refine ⟨h.cells, ?_⟩
  intro i x hx hi
  simp only [Netlist.addNet, List.getElem?_append, List.getElem?_singleton] at hx
  split at hx
  · exact h.nets i x hx hi
  · split at hx
    · cases hx
      rfl
    · cases hx

theorem TailBlank.setCell {m : Netlist} (h : m.TailBlank) (c : CellRef) (x : Cell) :
    (m.setCell c x).TailBlank := by
  refine ⟨?_, h.nets⟩
  intro i y hy hi
  have hc := c.index_lt
  rw [Netlist.setCell, List.getElem?_set_ne (by omega)] at hy
  exact h.cells i y hy hi

theorem TailBlank.setNet {m : Netlist} (h : m.TailBlank) (n : NetRef) (x : Net) :
    (m.setNet n x).TailBlank := by
  refine ⟨h.cells, ?_⟩
  intro i y hy hi
  have hn := n.index_lt
  rw [Netlist.setNet, List.getElem?_set_ne (by omega)] at hy
  exact h.nets i y hy hi

/-- Handles reach every cell that is placed. -/
theorem TailBlank.cell?_ofIndex {m : Netlist} (h : m.TailBlank) {i : Nat} {x : Cell} {s : Site}
    (hx : m.cells[i]? = some x) (placed : x.site = some s) :
    i < UInt32.size ∧ m.cell? (.ofIndex i) = some x := by
  have lt : i < UInt32.size := by
    apply Nat.lt_of_not_le
    intro ge
    cases (h.cells i x hx ge).symm.trans placed
  exact ⟨lt, by rwa [cell?, Handle.index_ofIndex lt]⟩

/-- Handles reach every net that lists a wire. -/
theorem TailBlank.net?_ofIndex {m : Netlist} (h : m.TailBlank) {i : Nat} {x : Net} {w : Wire}
    {u : WireUse} (hx : m.nets[i]? = some x) (listed : x.wires.get? w = some u) :
    i < UInt32.size ∧ m.net? (.ofIndex i) = some x := by
  have lt : i < UInt32.size := by
    apply Nat.lt_of_not_le
    intro ge
    rw [h.nets i x hx ge] at listed
    cases listed
  exact ⟨lt, by rwa [net?, Handle.index_ofIndex lt]⟩

/-- The netlists there are: made by additions, and with any cell or net rewritten by hand. -/
inductive Built : Netlist → Prop
  | empty : Built ∅
  | addCell {m} (h : Built m) (name type : Symbol) : Built (m.addCell name type).2
  | addNet {m} (h : Built m) (name : Symbol) : Built (m.addNet name).2
  | setCell {m} (h : Built m) (c : CellRef) (x : Cell) : Built (m.setCell c x)
  | setNet {m} (h : Built m) (n : NetRef) (x : Net) : Built (m.setNet n x)

theorem Built.tail {m : Netlist} (h : m.Built) : m.TailBlank := by
  induction h with
  | empty => exact .empty
  | addCell _ name type ih => exact ih.addCell name type
  | addNet _ name ih => exact ih.addNet name
  | setCell _ c x ih => exact ih.setCell c x
  | setNet _ n x ih => exact ih.setNet n x

end Netlist

end Fabric
