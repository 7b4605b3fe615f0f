import Fabric.SortedMap.Lemmas
/-!
Symbols. An interner hands out one symbol for each distinct string, numbered from 0 in the order
in which the strings are first seen. Symbols compare by number, not by text.
-/

namespace Fabric

structure Symbol where
  raw : UInt32
  deriving DecidableEq, Repr

namespace Symbol

instance : Ord Symbol := ⟨compareOn Symbol.raw⟩

instance : Std.TransOrd Symbol := inferInstanceAs (Std.TransCmp (compareOn Symbol.raw))

instance : Std.LawfulEqOrd Symbol where
  eq_of_compare {a b} h := by
    have : a.raw = b.raw := Std.LawfulEqOrd.eq_of_compare h
    cases a; cases b; cases this; rfl

/-- The position of the symbol's string among the interned ones. -/
def index (x : Symbol) : Nat := x.raw.toNat

/-- The symbol of a position, if the position fits into 32 bits. -/
def ofIndex? (n : Nat) : Option Symbol := if n < UInt32.size then some ⟨n.toUInt32⟩ else none

theorem index_inj {x y : Symbol} : x.index = y.index ↔ x = y :=
  ⟨fun h => congrArg mk (UInt32.toNat_inj.1 h), congrArg index⟩

theorem index_mk {n : Nat} (h : n < UInt32.size) : (⟨n.toUInt32⟩ : Symbol).index = n :=
  UInt32.toNat_ofNat_of_lt' h

theorem ofIndex?_eq_some_iff {n : Nat} {x : Symbol} : ofIndex? n = some x ↔ x.index = n := by
  rw [ofIndex?]
  split
  next few => rw [Option.some_inj, ← index_inj, index_mk few, eq_comm]
  next many =>
    have lt : x.index < UInt32.size := x.raw.toNat_lt
    exact iff_of_false nofun (by omega)

theorem ofIndex?_eq_none_iff {n : Nat} : ofIndex? n = none ↔ UInt32.size ≤ n := by
  simp [ofIndex?]

/-- The long form of a symbol, by number. -/
def longText (x : Symbol) : String := s!"Ident({x.index})"

end Symbol

/-- The interned strings, each once, in the order of their symbols. -/
structure Interner where
  strings : List String
  nodup : strings.Nodup

namespace Interner

def empty : Interner := ⟨[], .nil⟩

instance : EmptyCollection Interner := ⟨empty⟩
instance : Inhabited Interner := ⟨empty⟩

def size (t : Interner) : Nat := t.strings.length

def isEmpty (t : Interner) : Bool := t.strings.isEmpty

/-- The symbol of a string that was interned before. -/
def find? (t : Interner) (s : String) : Option Symbol :=
  (t.strings.idxOf? s).map fun i => ⟨i.toUInt32⟩

/-- The string of a symbol. -/
def text? (t : Interner) (x : Symbol) : Option String := t.strings[x.index]?

/-- The symbol of a string, which gets the next number when it is new. Numbers are counted in 32
bits here; `store` is the interner that takes no more strings than there are symbols. -/
def intern (t : Interner) (s : String) : Symbol × Interner :=
  match h : t.strings.idxOf? s with
  | some i => (⟨i.toUInt32⟩, t)
  | none => (⟨t.size.toUInt32⟩, ⟨t.strings ++ [s], by
      rw [List.idxOf?_eq_none_iff] at h
      refine List.nodup_append.2 ⟨t.nodup, by simp, ?_⟩
      intro a ha b hb e
      exact h (by simpa [e, List.mem_singleton.1 hb] using ha)⟩)

/-- Interns strings from left to right. -/
def internAll (t : Interner) : List String → List Symbol × Interner
  | [] => ([], t)
  | s :: r =>
    let (x, t) := t.intern s
    let (xs, t) := t.internAll r
    (x :: xs, t)

/-- Different symbols name different strings. -/
theorem text?_inj (t : Interner) {x y : Symbol} {s : String} (hx : t.text? x = some s)
    (hy : t.text? y = some s) : x = y := by
  have inside : x.index < t.strings.length := (List.getElem?_eq_some_iff.1 hx).1
  exact Symbol.index_inj.1 ((List.getElem?_inj inside t.nodup).1 (hx.trans hy.symm))

/-- A one-line summary of the interner. -/
def summary (t : Interner) : String := s!"Interner \x7b len: {t.size} \x7d"

end Interner

end Fabric
