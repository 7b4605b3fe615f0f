/-!
Finite types whose values are written as words.
-/

namespace Fabric

class Word (α : Type) where
  all : List α
  word : α → String

namespace Word

def ofWord? {α : Type} [Word α] (s : String) : Option α := (all (α := α)).find? (word · == s)

/-- A word is read back when all words are listed and no two are alike. -/
theorem ofWord?_word {α : Type} [Word α] (a : α) (h : a ∈ all (α := α))
    (hd : ∀ b ∈ all (α := α), word b = word a → b = a) : ofWord? (word a) = some a := by
  unfold ofWord?
  cases hf : (all (α := α)).find? (word · == word a) with
  | none => exact absurd (List.find?_eq_none.1 hf a h) (by simp)
  | some b =>
    have := List.find?_some hf
    rw [hd b (List.mem_of_find?_eq_some hf) (by simpa using this)]

end Word

end Fabric
