import Fabric.Symbol
import Mathlib.Data.List.Dedup
import Mathlib.Data.List.Perm.Subperm
import Mathlib.Order.Defs.PartialOrder
/-!
Interners grow. Interning adds at most one string, after those that are there, so a symbol keeps its
string for good (`text?_mono`). There are 2^32 symbols; as long as there is one for every string,
the symbol of a string has this string as its text (`Fits.text?_intern`).
-/

namespace Fabric

namespace Interner

/-- An interner is below those that have its strings and perhaps more after them. -/
instance : Preorder Interner where
  le t t' := t.strings <+: t'.strings
  le_refl t := List.prefix_refl t.strings
  le_trans _ _ _ := List.IsPrefix.trans

variable {t t' : Interner} {s : String} {new : List String}

theorem text?_mono (h : t ≤ t') {x : Symbol} (hx : t.text? x = some s) : t'.text? x = some s := by
  obtain ⟨lt, rfl⟩ := List.getElem?_eq_some_iff.mp hx
  exact List.prefix_iff_getElem?.mp h x.index lt

/-- A string is found under the symbol that it is the text of. -/
theorem find?_eq_some_iff (room : t.size ≤ UInt32.size) {x : Symbol} :
    t.find? s = some x ↔ t.text? x = some s := by
  have at_symbol {i : Nat} (place : t.strings.idxOf? s = some i) :
      t.text? ⟨i.toUInt32⟩ = some s := by
    obtain ⟨lt, at_i, _⟩ := List.idxOf?_eq_some_iff.mp place
    rw [text?, Symbol.index_mk (Nat.lt_of_lt_of_le lt room)]
    exact List.getElem?_eq_some_iff.mpr ⟨lt, at_i⟩
  rw [find?]
  cases place : t.strings.idxOf? s with
  | none =>
    have missing := List.idxOf?_eq_none_iff.mp place
    refine iff_of_false nofun fun text => missing ?_
    exact List.mem_of_getElem? text
  | some i =>
    rw [Option.map_some, Option.some_inj]
    constructor
    · rintro rfl
      exact at_symbol place
    · exact t.text?_inj (at_symbol place)

/-! ## Interning -/

/-- A string that is there is found, another one comes last. -/
theorem intern_cases (t : Interner) (s : String) :
    (∃ i : Nat, t.strings[i]? = some s ∧ t.intern s = (⟨i.toUInt32⟩, t)) ∨
    (t.intern s).1 = ⟨t.size.toUInt32⟩ ∧ (t.intern s).2.strings = t.strings ++ [s] := by
  unfold intern
  split
  next i found =>
    obtain ⟨lt, at_i, _⟩ := List.idxOf?_eq_some_iff.mp found
    exact .inl ⟨i, List.getElem?_eq_some_iff.mpr ⟨lt, at_i⟩, rfl⟩
  next => exact .inr ⟨rfl, rfl⟩

theorem le_intern (t : Interner) (s : String) : t ≤ (t.intern s).2 := by
  rcases t.intern_cases s with ⟨i, _, e⟩ | ⟨_, strings⟩
  · rw [e]
  · exact ⟨[s], strings.symm⟩

theorem mem_strings_intern {u : String} (h : u ∈ (t.intern s).2.strings) :
    u ∈ t.strings ∨ u = s := by
  rcases t.intern_cases s with ⟨i, _, e⟩ | ⟨_, strings⟩
  · rw [e] at h
    exact .inl h
  · rw [strings, List.mem_append, List.mem_singleton] at h
    exact h

theorem text?_intern (room : (t.intern s).2.size ≤ UInt32.size) :
    (t.intern s).2.text? (t.intern s).1 = some s := by
  rcases t.intern_cases s with ⟨i, at_i, e⟩ | ⟨symbol, strings⟩
  · rw [e] at room ⊢
    have lt := (List.getElem?_eq_some_iff.mp at_i).1
    rw [text?, Symbol.index_mk (Nat.lt_of_lt_of_le lt room)]
    exact at_i
  · have lt : t.size < UInt32.size := by
      rw [size, strings, List.length_append] at room
      exact room
    rw [text?, symbol, Symbol.index_mk lt, strings, size]
    simp

/-! ## Room -/

/-- There is a symbol for each of the interner's strings and of new ones, where every string counts
once. -/
def Fits (t : Interner) (new : List String) : Prop :=
  (t.strings ++ new).dedup.length ≤ UInt32.size

instance : Decidable (t.Fits new) := inferInstanceAs (Decidable (_ ≤ _))

namespace Fits

theorem of_subset {new' : List String} (h : t.Fits new)
    (sub : ∀ u, u ∈ t'.strings ++ new' → u ∈ t.strings ++ new) : t'.Fits new' := by
  refine Nat.le_trans (List.Subperm.length_le ?_) h
  refine (List.nodup_dedup _).subperm fun u hu => ?_
  rw [List.mem_dedup] at hu ⊢
  exact sub u hu

theorem size_le (h : t.Fits new) : t.size ≤ UInt32.size := by
  refine Nat.le_trans (List.Subperm.length_le ?_) h
  refine t.nodup.subperm fun u hu => ?_
  rw [List.mem_dedup]
  exact List.mem_append_left new hu

theorem intern (h : t.Fits new) (hs : s ∈ new) : (t.intern s).2.Fits new := by
  refine h.of_subset fun u hu => ?_
  rw [List.mem_append] at hu ⊢
  rcases hu with hu | hu
  · rcases mem_strings_intern hu with hu | rfl
    · exact .inl hu
    · exact .inr hs
  · exact .inr hu

theorem text?_intern (h : t.Fits new) (hs : s ∈ new) :
    (t.intern s).2.text? (t.intern s).1 = some s :=
  Interner.text?_intern (h.intern hs).size_le

end Fits

/-! ## Interning several strings -/

theorem le_internAll (t : Interner) (l : List String) : t ≤ (t.internAll l).2 := by
  induction l generalizing t with
  | nil => exact le_refl t
  | cons s l ih => exact (t.le_intern s).trans (ih _)

theorem Fits.internAll {l : List String} (h : t.Fits new) (hl : l ⊆ new) :
    (t.internAll l).2.Fits new := by
  induction l generalizing t with
  | nil => exact h
  | cons s l ih =>
    rw [List.cons_subset] at hl
    exact ih (h.intern hl.1) hl.2

theorem Fits.map_text?_internAll {l : List String} (h : t.Fits new) (hl : l ⊆ new) :
    (t.internAll l).1.map (t.internAll l).2.text? = l.map some := by
  induction l generalizing t with
  | nil => rfl
  | cons s l ih =>
    rw [List.cons_subset] at hl
    have first := text?_mono (le_internAll _ l) (h.text?_intern hl.1)
    exact congrArg₂ List.cons first (ih (h.intern hl.1) hl.2)

end Interner

end Fabric
