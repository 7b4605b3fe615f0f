/-!
Outcomes of operations. There is an answer or an error, and in either case the state that the
operation leaves.
-/

namespace Fabric

structure Outcome (ε σ α : Type) where
  answer : Except ε α
  state : σ
  deriving Repr

namespace Outcome

variable {ε σ α : Type}

def accept (state : σ) (a : α) : Outcome ε σ α := ⟨.ok a, state⟩

def refuse (state : σ) (e : ε) : Outcome ε σ α := ⟨.error e, state⟩

/-- Whether the operation was carried out. -/
def accepted (o : Outcome ε σ α) : Bool := o.answer.isOk

end Outcome

/-! ## Steps in a row -/

section
variable {ε α β : Type} {x : Except ε α} {f : α → Except ε β}

theorem bind_eq_ok_iff_exists {b : β} : x >>= f = .ok b ↔ ∃ a, x = .ok a ∧ f a = .ok b := by
  cases x with
  | error e => simp [bind, Except.bind]
  | ok a => simp [bind, Except.bind]

theorem bind_eq_error_iff_exists {e : ε} :
    x >>= f = .error e ↔ x = .error e ∨ ∃ a, x = .ok a ∧ f a = .error e := by
  cases x with
  | error e' => simp [bind, Except.bind]
  | ok a => simp [bind, Except.bind]

variable {check : Except ε Unit} {g : Unit → Except ε β}

theorem bind_eq_ok_iff {b : β} : check >>= g = .ok b ↔ check = .ok () ∧ g () = .ok b :=
  bind_eq_ok_iff_exists.trans ⟨fun ⟨(), h⟩ => h, fun h => ⟨(), h⟩⟩

theorem bind_eq_error_iff {e : ε} :
    check >>= g = .error e ↔ check = .error e ∨ check = .ok () ∧ g () = .error e :=
  bind_eq_error_iff_exists.trans (or_congr_right ⟨fun ⟨(), h⟩ => h, fun h => ⟨(), h⟩⟩)

/-! ## One step for each element -/

variable {step : α → Except ε β}

theorem exists_mapM {l : List α} (h : ∀ a ∈ l, ∃ b, step a = .ok b) :
    ∃ r, l.mapM step = .ok r := by
  induction l with
  | nil => exact ⟨[], rfl⟩
  | cons a l ih =>
    obtain ⟨b, first⟩ := h a List.mem_cons_self
    obtain ⟨r, rest⟩ := ih fun a' mem => h a' (List.mem_cons_of_mem a mem)
    exact ⟨b :: r, by rw [List.mapM_cons, first, rest]; rfl⟩

theorem mem_of_mapM {l : List α} {r : List β} (run : l.mapM step = .ok r) {b : β} :
    b ∈ r ↔ ∃ a ∈ l, step a = .ok b := by
  induction l generalizing r with
  | nil =>
    cases run
    simp
  | cons a l ih =>
    rw [List.mapM_cons] at run
    obtain ⟨first, ha, run⟩ := bind_eq_ok_iff_exists.mp run
    obtain ⟨rest, hl, run⟩ := bind_eq_ok_iff_exists.mp run
    cases run
    simp [ih hl, ha, eq_comm]

theorem exists_of_mapM {l : List α} {r : List β} (run : l.mapM step = .ok r) {a : α}
    (mem : a ∈ l) : ∃ b, step a = .ok b := by
  induction l generalizing r with
  | nil => cases mem
  | cons a' l ih =>
    rw [List.mapM_cons] at run
    obtain ⟨first, ha, run⟩ := bind_eq_ok_iff_exists.mp run
    obtain ⟨rest, hl, _⟩ := bind_eq_ok_iff_exists.mp run
    rcases List.mem_cons.mp mem with rfl | mem
    · exact ⟨first, ha⟩
    · exact ih hl mem

end

end Fabric
