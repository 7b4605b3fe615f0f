import Fabric.SortedMap.Basic
/-!
The view of a sorted map is its look-up: what each operation does to it, and that maps with the
same look-up are equal.
-/

namespace Fabric.SortedMap

variable {κ ν : Type} [Ord κ]

@[simp] theorem get?_empty (k : κ) : (∅ : SortedMap κ ν).get? k = none := rfl

@[simp] theorem size_empty : (∅ : SortedMap κ ν).size = 0 := rfl

section
variable [Std.LawfulEqOrd κ]

theorem findIn_eq_none_iff {k : κ} {l : List (κ × ν)} :
    findIn k l = none ↔ ∀ e ∈ l, e.1 ≠ k := by
  induction l with
  | nil => simp [findIn]
  | cons a l ih =>
    obtain ⟨k', v⟩ := a
    by_cases h : compare k k' = .eq
    · have := Std.LawfulEqCmp.eq_of_compare h
      simp [findIn, this]
    · have hk : k' ≠ k := fun e => h (e ▸ Std.ReflCmp.compare_self)
      simp [findIn, h, ih, hk]

theorem mem_of_findIn {k : κ} {v : ν} {l : List (κ × ν)} (h : findIn k l = some v) :
    (k, v) ∈ l := by
  induction l with
  | nil => simp [findIn] at h
  | cons a l ih =>
    obtain ⟨k', v'⟩ := a
    unfold findIn at h
    split at h
    next he =>
      cases Std.LawfulEqCmp.eq_of_compare he
      cases h
      exact List.mem_cons_self
    next => exact List.mem_cons_of_mem _ (ih h)

theorem findIn_of_mem {k : κ} {v : ν} {l : List (κ × ν)}
    (hs : l.Pairwise (fun a b => compare a.1 b.1 = .lt)) (h : (k, v) ∈ l) :
    findIn k l = some v := by
  induction l with
  | nil => cases h
  | cons a l ih =>
    obtain ⟨k', v'⟩ := a
    rw [List.pairwise_cons] at hs
    rcases List.mem_cons.1 h with h | h
    · cases h
      simp [findIn, Std.ReflCmp.compare_self]
    · have hlt := hs.1 _ h
      have : compare k k' ≠ .eq := by
        intro he
        cases Std.LawfulEqCmp.eq_of_compare he
        simp [Std.ReflCmp.compare_self] at hlt
      simp [findIn, this, ih hs.2 h]

theorem mem_entries_iff (m : SortedMap κ ν) (k : κ) (v : ν) :
    (k, v) ∈ m.entries ↔ m.get? k = some v :=
  ⟨findIn_of_mem m.sorted, mem_of_findIn⟩

theorem mem_keys_iff (m : SortedMap κ ν) (k : κ) : k ∈ m.keys ↔ m.contains k = true := by
  simp only [keys, List.mem_map, contains, Option.isSome_iff_exists, ← mem_entries_iff]
  exact ⟨fun ⟨e, he, hk⟩ => ⟨e.2, hk ▸ he⟩, fun ⟨v, hv⟩ => ⟨_, hv, rfl⟩⟩

theorem mem_keys_iff_get? (m : SortedMap κ ν) (k : κ) : k ∈ m.keys ↔ ∃ v, m.get? k = some v :=
  (m.mem_keys_iff k).trans Option.isSome_iff_exists

theorem mem_values_iff (m : SortedMap κ ν) (v : ν) : v ∈ m.values ↔ ∃ k, m.get? k = some v := by
  simp only [values, List.mem_map, ← mem_entries_iff]
  exact ⟨fun ⟨e, he, hv⟩ => ⟨e.1, hv ▸ he⟩, fun ⟨k, hk⟩ => ⟨_, hk, rfl⟩⟩

theorem findIn_eraseFrom {k k' : κ} {l : List (κ × ν)}
    (hs : l.Pairwise (fun a b => compare a.1 b.1 = .lt)) [DecidableEq κ] :
    findIn k' (eraseFrom k l) = if k' = k then none else findIn k' l := by
  induction l with
  | nil => simp [eraseFrom, findIn]
  | cons a l ih =>
    obtain ⟨j, v⟩ := a
    rw [List.pairwise_cons] at hs
    by_cases hk : compare k j = .eq
    · cases Std.LawfulEqCmp.eq_of_compare hk
      rw [eraseFrom, if_pos hk]
      by_cases h : k' = k
      · rw [if_pos h, h]
        rw [findIn_eq_none_iff]
        intro e he hek
        have := hs.1 e he
        rw [hek] at this
        simp [Std.ReflCmp.compare_self] at this
      · have : compare k' k ≠ .eq := fun he => h (Std.LawfulEqCmp.eq_of_compare he)
        simp [findIn, this, h]
    · rw [eraseFrom, if_neg hk, findIn, findIn, ih hs.2]
      by_cases h : k' = k
      · rw [if_pos h, if_pos h, h, if_neg hk]
      · rw [if_neg h, if_neg h]

theorem get?_erase [DecidableEq κ] (m : SortedMap κ ν) (k k' : κ) :
    (m.erase k).get? k' = if k' = k then none else m.get? k' :=
  findIn_eraseFrom m.sorted

theorem entries_perm_erase {m : SortedMap κ ν} {k : κ} {v : ν} (h : m.get? k = some v) :
    m.entries.Perm ((k, v) :: (m.erase k).entries) := by
  have : ∀ l : List (κ × ν), findIn k l = some v → l.Perm ((k, v) :: eraseFrom k l) := by
    intro l
    induction l with
    | nil => simp [findIn]
    | cons a l ih =>
      obtain ⟨j, w⟩ := a
      intro hv
      by_cases hk : compare k j = .eq
      · cases Std.LawfulEqCmp.eq_of_compare hk
        rw [findIn, if_pos hk] at hv
        cases hv
        rw [eraseFrom, if_pos hk]
      · rw [findIn, if_neg hk] at hv
        rw [eraseFrom, if_neg hk]
        exact ((ih hv).cons (j, w)).trans (.swap _ _ _)
  exact this m.entries h

theorem keys_perm_erase {m : SortedMap κ ν} {k : κ} {v : ν} (h : m.get? k = some v) :
    m.keys.Perm (k :: (m.erase k).keys) :=
  (entries_perm_erase h).map Prod.fst

theorem nodup_keys (m : SortedMap κ ν) : m.keys.Nodup := by
  apply List.pairwise_map.mpr
  apply m.sorted.imp
  intro a b lt e
  rw [e] at lt
  simp [Std.ReflCmp.compare_self] at lt

omit [Std.LawfulEqOrd κ] in
theorem erase_of_get?_eq_none {m : SortedMap κ ν} {k : κ} (h : m.get? k = none) :
    m.erase k = m := by
  have : ∀ l : List (κ × ν), findIn k l = none → eraseFrom k l = l := by
    intro l
    induction l with
    | nil => intro _; rfl
    | cons a l ih =>
      obtain ⟨j, v⟩ := a
      intro hn
      unfold findIn at hn
      split at hn
      next => cases hn
      next hk => simp [eraseFrom, hk, ih hn]
  cases m with
  | mk l hs => simpa [erase] using this l h

end

section
variable [Std.TransOrd κ] [Std.LawfulEqOrd κ]

omit [Std.TransOrd κ] in
theorem findIn_insertInto [DecidableEq κ] (k k' : κ) (v : ν) (l : List (κ × ν)) :
    findIn k' (insertInto k v l) = if k' = k then some v else findIn k' l := by
  induction l with
  | nil =>
    by_cases h : k' = k
    · simp [insertInto, findIn, h, Std.ReflCmp.compare_self]
    · have : compare k' k ≠ .eq := fun he => h (Std.LawfulEqCmp.eq_of_compare he)
      simp [insertInto, findIn, h, this]
  | cons a l ih =>
    obtain ⟨j, w⟩ := a
    have hne : k' ≠ k → compare k' k ≠ .eq := fun h he => h (Std.LawfulEqCmp.eq_of_compare he)
    unfold insertInto
    split
    next hlt =>
      by_cases h : k' = k
      · simp [findIn, h, Std.ReflCmp.compare_self]
      · simp [findIn, h, hne h]
    next heq =>
      cases Std.LawfulEqCmp.eq_of_compare heq
      by_cases h : k' = k
      · simp [findIn, h, Std.ReflCmp.compare_self]
      · simp [findIn, h, hne h]
    next hgt =>
      rw [findIn, findIn, ih]
      by_cases h : k' = k
      · simp [h, hgt]
      · simp [h]

theorem get?_insert [DecidableEq κ] (m : SortedMap κ ν) (k k' : κ) (v : ν) :
    (m.insert k v).get? k' = if k' = k then some v else m.get? k' :=
  findIn_insertInto k k' v m.entries

@[simp] theorem get?_insert_self [DecidableEq κ] (m : SortedMap κ ν) (k : κ) (v : ν) :
    (m.insert k v).get? k = some v := by simp [get?_insert]

/-- Maps that answer alike are equal. -/
theorem ext {m m' : SortedMap κ ν} (h : ∀ k, m.get? k = m'.get? k) : m = m' := by
  have hp : m.entries.Perm m'.entries := by
    refine (List.perm_ext_iff_of_nodup ?_ ?_).2 fun e => ?_
    · exact m.sorted.imp fun {a b} hab e => by simp [e, Std.ReflCmp.compare_self] at hab
    · exact m'.sorted.imp fun {a b} hab e => by simp [e, Std.ReflCmp.compare_self] at hab
    · rw [mem_entries_iff, mem_entries_iff, h]
  have anti : ∀ a b : κ × ν, a ∈ m.entries → b ∈ m'.entries → compare a.1 b.1 = .lt →
      compare b.1 a.1 = .lt → a = b := fun a b _ _ hab hba =>
    absurd (Std.TransCmp.lt_trans hab hba) (by simp [Std.ReflCmp.compare_self])
  have := hp.eq_of_pairwise anti m.sorted m'.sorted
  cases m; cases m'; cases this; rfl

theorem eq_empty_of_keys {m : SortedMap κ ν} (h : m.keys = []) : m = ∅ := by
  have entries : m.entries = [] := List.map_eq_nil_iff.mp h
  apply ext
  intro k
  rw [get?, entries]
  rfl

variable [DecidableEq κ]

theorem erase_insert (m : SortedMap κ ν) (k : κ) (v : ν) : (m.insert k v).erase k = m.erase k := by
  apply ext
  intro k'
  rw [get?_erase, get?_erase, get?_insert]
  split <;> rfl

theorem entries_perm_insert (m : SortedMap κ ν) (k : κ) (v : ν) :
    (m.insert k v).entries.Perm ((k, v) :: (m.erase k).entries) := by
  have := entries_perm_erase (get?_insert_self m k v)
  rwa [erase_insert] at this

theorem insert_erase (m : SortedMap κ ν) (k : κ) (v : ν) :
    (m.erase k).insert k v = m.insert k v := by
  apply ext
  intro k'
  rw [get?_insert, get?_insert, get?_erase]
  split <;> rfl

theorem insert_of_get?_eq_some {m : SortedMap κ ν} {k : κ} {v : ν} (h : m.get? k = some v) :
    m.insert k v = m := by
  apply ext
  intro k'
  rw [get?_insert]
  split
  next e => rw [e, h]
  · rfl

end

end Fabric.SortedMap
