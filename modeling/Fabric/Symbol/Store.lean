import Fabric.Symbol
/-!
Stores of strings, and interners over them. What keeps the strings of an interner comes from
outside: it is a record of its operations, with the laws that it promises. The interner passes every
call on.
-/

namespace Fabric

/-- A store of strings under symbols, with states `σ`. -/
structure Store (σ : Type) where
  empty : σ
  /-- The symbol of a string, which is stored if it is new. There is none if the store refuses. -/
  intern : σ → String → Option (Symbol × σ)
  /-- The symbol of a string that is stored. -/
  find? : σ → String → Option Symbol
  /-- The string of a symbol. There is none if the store refuses. -/
  text? : σ → Symbol → Option String
  size : σ → Nat

namespace Store

variable {σ : Type}

/-- A state has one string more than another. -/
structure Adds (S : Store σ) (t : σ) (s : String) (x : Symbol) (t' : σ) : Prop where
  find? : ∀ u, S.find? t' u = if u = s then some x else S.find? t u
  text? : ∀ y, S.text? t' y = if y = x then some s else S.text? t y
  size : S.size t' = S.size t + 1

/-- A store that stores each distinct string once, under the symbols of the positions from 0 on. -/
structure Lawful (S : Store σ) : Prop where
  find?_empty : ∀ s, S.find? S.empty s = none
  text?_empty : ∀ x, S.text? S.empty x = none
  size_empty : S.size S.empty = 0
  intern_stored : ∀ t s x, S.find? t s = some x → S.intern t s = some (x, t)
  intern_new : ∀ t s x, S.find? t s = none → Symbol.ofIndex? (S.size t) = some x →
    ∃ t', S.intern t s = some (x, t') ∧ S.Adds t s x t'
  intern_full : ∀ t s, S.find? t s = none → Symbol.ofIndex? (S.size t) = none →
    S.intern t s = none

/-- An interner keeps a store. -/
structure Interner (S : Store σ) where
  store : σ

namespace Interner

variable {S : Store σ}

def new (S : Store σ) : S.Interner := ⟨S.empty⟩

def intern (t : S.Interner) (s : String) : Option (Symbol × S.Interner) :=
  (S.intern t.store s).map fun (x, store) => (x, ⟨store⟩)

def find? (t : S.Interner) (s : String) : Option Symbol := S.find? t.store s

def text? (t : S.Interner) (x : Symbol) : Option String := S.text? t.store x

def size (t : S.Interner) : Nat := S.size t.store

end Interner

end Store

/-! ## Lists as stores -/

namespace Interner

/-- Interners as a store. They take no more strings than there are symbols. -/
def store : Store Interner where
  empty := ∅
  intern t s :=
    match t.find? s with
    | some x => some (x, t)
    | none => (Symbol.ofIndex? t.size).map fun _ => t.intern s
  find? := find?
  text? := text?
  size := size

end Interner

end Fabric
