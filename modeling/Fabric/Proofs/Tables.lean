import Fabric.Proofs.Chip
import Fabric.Proofs.Interner
import Mathlib.Data.List.Forall2
/-!
The tables of a chip under construction. They hold the entries that were added, in order, with
symbols in place of strings, and the indices find exactly their names (`Draft.Holds`). Names are
compared as symbols, which comes to the same as comparing the strings as long as there is a symbol
for each: an entry with a new name is appended to its table, one whose name is taken is refused.
-/

namespace Fabric

/-! ## Symbols for strings -/

/-- Symbols whose texts are some strings are equal where the strings are. -/
theorem Interner.mem_iff_of_map_text? {t : Interner} {xs : List Symbol} {names : List String}
    (h : xs.map t.text? = names.map some) {x : Symbol} {s : String} (hx : t.text? x = some s) :
    x ∈ xs ↔ s ∈ names := by
  constructor
  · intro mem
    have text : t.text? x ∈ xs.map t.text? := List.mem_map_of_mem mem
    rw [h, hx] at text
    simpa using text
  · intro mem
    have text : some s ∈ names.map some := List.mem_map_of_mem mem
    rw [← h] at text
    obtain ⟨y, hy, hs⟩ := List.mem_map.mp text
    exact t.text?_inj hs hx ▸ hy

/-- There are no more symbols than words. -/
theorem Symbol.length_le_of_nodup {l : List Symbol} (h : l.Nodup) : l.length ≤ UInt32.size := by
  have distinct : (l.map Symbol.index).Nodup :=
    h.map fun _ _ => Symbol.index_inj.mp
  have below : l.map Symbol.index ⊆ List.range UInt32.size := by
    intro i hi
    obtain ⟨x, _, rfl⟩ := List.mem_map.mp hi
    exact List.mem_range.mpr x.raw.toNat_lt
  simpa using (distinct.subperm below).length_le

namespace Description

/-- The strings that an interner gets when an entry is added. -/
def SiteEntry.strings (e : SiteEntry) : List String := e.name :: e.type :: e.attributes.keys

def WireEntry.strings (e : WireEntry) : List String :=
  e.name :: (e.type.toList ++ e.attributes.keys)

/-- The wires of a pip are found by their names as they are. -/
def PipEntry.strings (e : PipEntry) : List String :=
  e.name :: (e.type.toList ++ e.attributes.keys)

/-- Nothing is said of the site but its name and its type. -/
def SiteEntry.Plain (e : SiteEntry) : Prop :=
  e.hidden = false ∧ e.globalBuffer = false ∧ e.attributes = ∅

end Description

namespace Chip

variable {t t' : Interner}

/-! ## Rows -/

/-- The same attributes, with symbols for keys. -/
def SpellsAttributes (t : Interner) (given : List Attribute) (attributes : Attributes) : Prop :=
  List.Forall₂ (fun a e => t.text? a.1 = some e.1 ∧ a.2 = e.2) given attributes.entries

/-- A row with the symbols of an entry's strings, and with everything else as in the entry. -/
structure SiteRow.Spells (t : Interner) (row : SiteRow) (e : Description.SiteEntry) : Prop where
  name : t.text? row.name = some e.name
  type : t.text? row.type = some e.type
  hidden : row.hidden = e.hidden
  globalBuffer : row.globalBuffer = e.globalBuffer
  attributes : SpellsAttributes t row.attributes e.attributes

structure WireRow.Spells (t : Interner) (row : WireRow) (e : Description.WireEntry) : Prop where
  name : t.text? row.name = some e.name
  type : row.type.map t.text? = e.type.map some
  attributes : SpellsAttributes t row.attributes e.attributes

structure PipRow.Spells (t : Interner) (row : PipRow)
    (e : Description.PipEntry × Description.Endpoints) : Prop where
  name : t.text? row.name = some e.1.name
  type : row.type.map t.text? = e.1.type.map some
  source : row.source = .ofIndex e.2.source
  target : row.target = .ofIndex e.2.target
  attributes : SpellsAttributes t row.attributes e.1.attributes

theorem SpellsAttributes.mono {given : List Attribute} {attributes : Attributes}
    (h : SpellsAttributes t given attributes) (le : t ≤ t') :
    SpellsAttributes t' given attributes :=
  h.imp fun _ _ ⟨key, value⟩ => ⟨Interner.text?_mono le key, value⟩

theorem forall₂_zip_of_map_text? {xs : List Symbol} {entries : List (String × String)}
    (h : xs.map t.text? = (entries.map (·.1)).map some) :
    List.Forall₂ (fun a e => t.text? a.1 = some e.1 ∧ a.2 = e.2)
      (xs.zip (entries.map (·.2))) entries := by
  induction entries generalizing xs with
  | nil =>
    rw [List.map_eq_nil_iff.mp h]
    exact .nil
  | cons e entries ih =>
    obtain ⟨x, xs, rfl, head, tail⟩ := List.map_eq_cons_iff.mp h
    exact .cons ⟨head, rfl⟩ (ih tail)

theorem map_text?_mono {x : Option Symbol} {s : Option String} (h : x.map t.text? = s.map some)
    (le : t ≤ t') : x.map t'.text? = s.map some := by
  cases x with
  | none => exact h
  | some x =>
    cases s with
    | none => cases h
    | some s => exact congrArg some (Interner.text?_mono le (Option.some.inj h))

theorem SiteRow.Spells.mono {row : SiteRow} {e : Description.SiteEntry} (h : row.Spells t e)
    (le : t ≤ t') : row.Spells t' e where
  name := Interner.text?_mono le h.name
  type := Interner.text?_mono le h.type
  hidden := h.hidden
  globalBuffer := h.globalBuffer
  attributes := h.attributes.mono le

theorem WireRow.Spells.mono {row : WireRow} {e : Description.WireEntry} (h : row.Spells t e)
    (le : t ≤ t') : row.Spells t' e where
  name := Interner.text?_mono le h.name
  type := map_text?_mono h.type le
  attributes := h.attributes.mono le

theorem PipRow.Spells.mono {row : PipRow} {e : Description.PipEntry × Description.Endpoints}
    (h : row.Spells t e) (le : t ≤ t') : row.Spells t' e where
  name := Interner.text?_mono le h.name
  type := map_text?_mono h.type le
  source := h.source
  target := h.target
  attributes := h.attributes.mono le

/-! ## Indices -/

/-- An index finds every name of a table at its position, and no other name. -/
def Indexed {k : Kind} (names : List Symbol) (index : SortedMap Symbol (Handle k)) : Prop :=
  ∀ x h, index.get? x = some h ↔ ∃ i, names[i]? = some x ∧ h = .ofIndex i

namespace Indexed

variable {k : Kind} {names : List Symbol} {index : SortedMap Symbol (Handle k)}

theorem empty : Indexed [] (∅ : SortedMap Symbol (Handle k)) := by simp [Indexed]

theorem contains_iff (h : Indexed names index) {x : Symbol} :
    index.contains x = true ↔ x ∈ names := by
  simp only [SortedMap.contains, Option.isSome_iff_exists, h x, List.mem_iff_getElem?]
  constructor
  · rintro ⟨_, i, hi, _⟩
    exact ⟨i, hi⟩
  · rintro ⟨i, hi⟩
    exact ⟨_, i, hi, rfl⟩

theorem push (h : Indexed names index) {x : Symbol} (new : x ∉ names) :
    Indexed (names ++ [x]) (index.insert x (.ofIndex names.length)) := by
  intro y g
  rw [SortedMap.get?_insert]
  split
  next e =>
    subst e
    constructor
    · intro hg
      exact ⟨names.length, by simp, (Option.some.inj hg).symm⟩
    · rintro ⟨i, hi, rfl⟩
      -- The name stands at one position only.
      have at_end : i = names.length := by
        rcases Nat.lt_or_ge i names.length with lt | ge
        · rw [List.getElem?_append_left lt] at hi
          exact absurd (List.mem_of_getElem? hi) new
        · have lt := (List.getElem?_eq_some_iff.mp hi).1
          simp at lt
          omega
      rw [at_end]
  next ne =>
    rw [h y g]
    refine exists_congr fun i => and_congr_left fun _ => ?_
    rcases Nat.lt_trichotomy i names.length with lt | rfl | gt
    · rw [List.getElem?_append_left lt]
    · simp [Ne.symm ne]
    · have beyond : (names ++ [x])[i]? = none := List.getElem?_eq_none (by simp; omega)
      simp [beyond, Nat.le_of_lt gt]

end Indexed

/-- The names of a table are distinct, and the index finds exactly them. -/
structure Catalogued {k : Kind} (names : List Symbol) (index : SortedMap Symbol (Handle k)) :
    Prop where
  distinct : names.Nodup
  indexed : Indexed names index

namespace Catalogued

variable {k : Kind} {names : List Symbol} {index : SortedMap Symbol (Handle k)} {x : Symbol}

theorem empty : Catalogued [] (∅ : SortedMap Symbol (Handle k)) := ⟨.nil, .empty⟩

theorem push (h : Catalogued names index) (new : x ∉ names) :
    Catalogued (names ++ [x]) (index.insert x (.ofIndex names.length)) :=
  ⟨h.distinct.append (List.nodup_singleton x) (List.disjoint_singleton.mpr new),
    h.indexed.push new⟩

theorem not_mem (h : Catalogued names index) (new : index.contains x = false) : x ∉ names := by
  rw [← h.indexed.contains_iff, new]
  exact Bool.false_ne_true

/-- With a name left, a table is not full. -/
theorem length_lt (h : Catalogued names index) (new : x ∉ names) : names.length < UInt32.size := by
  have room := Symbol.length_le_of_nodup (h.push new).distinct
  rw [List.length_append, List.length_singleton] at room
  exact room

end Catalogued

/-! ## Tables -/

/-- How the rows of a table spell its entries. A table has one name for each row, which is the
entry's, and rows keep what they spell when the interner grows. -/
structure Spelling (ρ ε : Type) where
  rowName : ρ → Symbol
  entryName : ε → String
  spells : Interner → ρ → ε → Prop
  named : ∀ {t row e}, spells t row e → t.text? (rowName row) = some (entryName e)
  mono : ∀ {t t' row e}, spells t row e → t ≤ t' → spells t' row e

def siteSpelling : Spelling SiteRow Description.SiteEntry where
  rowName := (·.name)
  entryName := (·.name)
  spells := SiteRow.Spells
  named h := h.name
  mono h := h.mono

def wireSpelling : Spelling WireRow Description.WireEntry where
  rowName := (·.name)
  entryName := (·.name)
  spells := WireRow.Spells
  named h := h.name
  mono h := h.mono

def pipSpelling : Spelling PipRow (Description.PipEntry × Description.Endpoints) where
  rowName := (·.name)
  entryName e := e.1.name
  spells := PipRow.Spells
  named h := h.name
  mono h := h.mono

/-- What a function keeps is the same for the whole list if it is applied to one element. -/
theorem map_modify_eq_map {α γ : Type} {f : α → α} {g : α → γ} (same : ∀ a, g (f a) = g a)
    (l : List α) (i : Nat) : (l.modify i f).map g = l.map g := by
  refine List.ext_getElem (by simp) fun j _ _ => ?_
  simp only [List.getElem_map, List.getElem_modify]
  split <;> simp [same]

/-- A table with a row for each entry, in order, and an index of the names, which are distinct. -/
structure Tabled {ρ ε : Type} {k : Kind} (σ : Spelling ρ ε) (t : Interner) (rows : List ρ)
    (index : SortedMap Symbol (Handle k)) (entries : List ε) : Prop where
  spelled : List.Forall₂ (σ.spells t) rows entries
  catalogued : Catalogued (rows.map σ.rowName) index

namespace Tabled

variable {ρ ε : Type} {k : Kind} {σ : Spelling ρ ε} {rows : List ρ} {entries : List ε}
  {index : SortedMap Symbol (Handle k)}

theorem empty : Tabled σ t [] (∅ : SortedMap Symbol (Handle k)) [] := ⟨.nil, .empty⟩

theorem mono (h : Tabled σ t rows index entries) (le : t ≤ t') : Tabled σ t' rows index entries :=
  ⟨h.spelled.imp fun _ _ row => σ.mono row le, h.catalogued⟩

theorem length_eq (h : Tabled σ t rows index entries) : rows.length = entries.length :=
  h.spelled.length_eq

theorem length_le (h : Tabled σ t rows index entries) : rows.length ≤ UInt32.size := by
  simpa using Symbol.length_le_of_nodup h.catalogued.distinct

theorem length_lt (h : Tabled σ t rows index entries) {x : Symbol}
    (new : index.contains x = false) : rows.length < UInt32.size := by
  simpa using h.catalogued.length_lt (h.catalogued.not_mem new)

theorem map_text? (h : Tabled σ t rows index entries) :
    (rows.map σ.rowName).map t.text? = (entries.map σ.entryName).map some := by
  rw [List.map_map, List.map_map, ← List.forall₂_eq_eq_eq, List.forall₂_map_left_iff,
    List.forall₂_map_right_iff]
  exact h.spelled.imp fun _ _ row => σ.named row

/-- The index has a symbol where an entry has its text for a name. -/
theorem contains_iff (h : Tabled σ t rows index entries) {x : Symbol} {s : String}
    (hx : t.text? x = some s) : index.contains x = true ↔ s ∈ entries.map σ.entryName :=
  h.catalogued.indexed.contains_iff.trans (Interner.mem_iff_of_map_text? h.map_text? hx)

theorem push (h : Tabled σ t rows index entries) {row : ρ} {e : ε} (spells : σ.spells t row e)
    (new : σ.entryName e ∉ entries.map σ.entryName) :
    Tabled σ t (rows ++ [row]) (index.insert (σ.rowName row) (.ofIndex rows.length))
      (entries ++ [e]) where
  spelled := List.rel_append h.spelled (.cons spells .nil)
  catalogued := by
    have other : σ.rowName row ∉ rows.map σ.rowName := fun mem =>
      new ((Interner.mem_iff_of_map_text? h.map_text? (σ.named spells)).mp mem)
    simpa using h.catalogued.push other

/-- A row may change in what it does not spell. -/
theorem modify (h : Tabled σ t rows index entries) (i : Nat) {f : ρ → ρ}
    (name : ∀ row, σ.rowName (f row) = σ.rowName row)
    (spells : ∀ {row e}, σ.spells t row e → σ.spells t (f row) e) :
    Tabled σ t (rows.modify i f) index entries where
  spelled := by
    refine List.forall₂_iff_get.mpr ⟨by simp [h.length_eq], fun j hj hj' => ?_⟩
    have old := h.spelled.get (by simpa using hj) hj'
    simp only [List.get_eq_getElem, List.getElem_modify] at old ⊢
    split
    · exact spells old
    · exact old
  catalogued := by
    have names : (rows.modify i f).map σ.rowName = rows.map σ.rowName :=
      map_modify_eq_map name rows i
    exact names ▸ h.catalogued

/-- The lists of pips at a wire are no part of its entry. -/
theorem appendPip {c : Chip} {wires : List Description.WireEntry}
    (h : Tabled wireSpelling t c.wires c.wireByName wires) (row : PipRow) :
    Tabled wireSpelling t (c.appendPip row).wires (c.appendPip row).wireByName wires :=
  let p : Pip := .ofIndex c.pips.length
  (h.modify row.source.index (f := addDownhill p) (fun _ => rfl)
      fun spells => ⟨spells.name, spells.type, spells.attributes⟩).modify
    row.target.index (f := addUphill p) (fun _ => rfl)
      fun spells => ⟨spells.name, spells.type, spells.attributes⟩

end Tabled

end Chip

end Fabric
