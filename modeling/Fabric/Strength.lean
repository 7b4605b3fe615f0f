import Fabric.Word
/-!
Strengths of bindings, from none to those that only the user may undo.
-/

namespace Fabric

inductive Strength where
  | none | weak | strong | placer | fixed | locked | user
  deriving DecidableEq, Repr

namespace Strength

instance : Inhabited Strength := ⟨none⟩

def rank : Strength → Nat
  | none => 0
  | weak => 1
  | strong => 2
  | placer => 3
  | fixed => 4
  | locked => 5
  | user => 6

instance : Ord Strength := ⟨fun a b => compare a.rank b.rank⟩

instance : Word Strength where
  all := [none, weak, strong, placer, fixed, locked, user]
  word
    | none => "None"
    | weak => "Weak"
    | strong => "Strong"
    | placer => "Placer"
    | fixed => "Fixed"
    | locked => "Locked"
    | user => "User"

theorem rank_inj {a b : Strength} : a.rank = b.rank ↔ a = b := by
  constructor
  · cases a <;> cases b <;> simp [rank]
  · exact congrArg _

end Strength

end Fabric
