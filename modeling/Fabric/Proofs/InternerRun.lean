import Fabric.Proofs.Interner
import Fabric.Symbol.Call
import Mathlib.Data.List.Induction
/-!
Runs of an interner over any store that keeps its laws. After any calls its strings are those that
were interned, numbered in the order in which they first came (`Numbers`). So a symbol is the number
of distinct strings before the first coming of its own, whenever it is asked for, and what one can
ask about strings and symbols is decided by the calls that interned them (`run_laws`). One such
store are the interners that are lists (`Interner.store_lawful`).
-/

namespace Fabric

/-! ## Ranks -/

section
variable {s s' : String} {l l' : List String}

/-- The number of distinct strings before the first occurrence of a string. -/
def rank (s : String) (l : List String) : Nat := (l.take (l.idxOf s)).dedup.length

theorem rank_append_of_mem (h : s ∈ l) (r : List String) : rank s (l ++ r) = rank s l := by
  rw [rank, List.idxOf_append_of_mem h, List.take_append_of_le_length List.idxOf_le_length, rank]

theorem rank_append_self (h : s ∉ l) : rank s (l ++ [s]) = l.dedup.length := by
  rw [rank, List.idxOf_append_of_notMem h]
  simp

theorem length_dedup_le (h : l ⊆ l') : l.dedup.length ≤ l'.dedup.length := by
  refine List.Subperm.length_le ((List.nodup_dedup l).subperm fun u hu => ?_)
  rw [List.mem_dedup] at hu ⊢
  exact h hu

theorem length_dedup_concat_of_mem (h : s ∈ l) : (l ++ [s]).dedup.length = l.dedup.length := by
  have same : l ++ [s] ⊆ l := List.append_subset.mpr ⟨List.Subset.refl l, by simpa using h⟩
  exact Nat.le_antisymm (length_dedup_le same) (length_dedup_le (List.subset_append_left l [s]))

theorem length_dedup_concat (h : s ∉ l) : (l ++ [s]).dedup.length = l.dedup.length + 1 := by
  rw [List.Disjoint.dedup_append (List.disjoint_singleton.mpr h)]
  simp

theorem not_mem_take_idxOf (h : s ∈ l) : s ∉ l.take (l.idxOf s) := by
  rw [List.mem_take_iff_idxOf_lt h]
  exact Nat.lt_irrefl _

/-- Strings before the first occurrence of a string, with the string itself, are one more. -/
theorem rank_lt_length_dedup (h : s ∈ l) (mem : s ∈ l') (sub : l.take (l.idxOf s) ⊆ l') :
    rank s l < l'.dedup.length := by
  have more : (s :: l.take (l.idxOf s)).dedup.length = rank s l + 1 := by
    rw [List.dedup_cons_of_notMem (not_mem_take_idxOf h), List.length_cons, rank]
  have := length_dedup_le (List.cons_subset.mpr ⟨mem, sub⟩)
  omega

theorem rank_lt (h : s ∈ l) : rank s l < l.dedup.length :=
  rank_lt_length_dedup h h (List.take_subset _ _)

theorem rank_lt_rank (h : s ∈ l) (lt : l.idxOf s < l.idxOf s') : rank s l < rank s' l :=
  rank_lt_length_dedup h ((List.mem_take_iff_idxOf_lt h).mpr lt)
    (List.take_subset_take_left l (Nat.le_of_lt lt))

/-- Ranks are in the order of first occurrences. -/
theorem compare_rank (h : s ∈ l) (h' : s' ∈ l) :
    compare (rank s l) (rank s' l) = compare (l.idxOf s) (l.idxOf s') := by
  rcases Nat.lt_trichotomy (l.idxOf s) (l.idxOf s') with lt | e | gt
  · rw [Nat.compare_eq_lt.mpr lt, Nat.compare_eq_lt.mpr (rank_lt_rank h lt)]
  · rw [(List.idxOf_inj h).mp e]
    simp
  · rw [Nat.compare_eq_gt.mpr gt, Nat.compare_eq_gt.mpr (rank_lt_rank h' gt)]

theorem rank_inj (h : s ∈ l) (h' : s' ∈ l) : rank s l = rank s' l ↔ s = s' := by
  rw [← Nat.compare_eq_eq, compare_rank h h', Nat.compare_eq_eq, List.idxOf_inj h]

/-- Ranks leave no gap. -/
theorem exists_rank_eq {i : Nat} (h : i < l.dedup.length) : ∃ s ∈ l, rank s l = i := by
  induction l using List.reverseRecOn with
  | nil => simp at h
  | append_singleton l s ih =>
    have earlier (lt : i < l.dedup.length) : ∃ u ∈ l ++ [s], rank u (l ++ [s]) = i := by
      obtain ⟨u, hu, e⟩ := ih lt
      exact ⟨u, List.mem_append_left [s] hu, (rank_append_of_mem hu [s]).trans e⟩
    by_cases hs : s ∈ l
    · exact earlier (length_dedup_concat_of_mem hs ▸ h)
    · rw [length_dedup_concat hs] at h
      rcases Nat.lt_succ_iff_lt_or_eq.mp h with lt | rfl
      · exact earlier lt
      · exact ⟨s, by simp, rank_append_self hs⟩

/-- A symbol is that of a string of a list, by rank. -/
def Ranks (l : List String) (s : String) (x : Symbol) : Prop := s ∈ l ∧ x.index = rank s l

variable {x : Symbol}

theorem Ranks.index_lt (h : Ranks l s x) : x.index < l.dedup.length := h.2 ▸ rank_lt h.1

theorem Ranks.append (h : Ranks l s x) (r : List String) : Ranks (l ++ r) s x :=
  ⟨List.mem_append_left r h.1, h.2.trans (rank_append_of_mem h.1 r).symm⟩

theorem exists_ranks (h : s ∈ l) (room : l.dedup.length ≤ UInt32.size) : ∃ x, Ranks l s x :=
  ⟨_, h, Symbol.index_mk (Nat.lt_of_lt_of_le (rank_lt h) room)⟩

/-- A string that came before does not change the ranks. -/
theorem ranks_concat_of_mem (old : s ∈ l) : Ranks (l ++ [s]) s' x ↔ Ranks l s' x := by
  refine ⟨fun ⟨mem, at_rank⟩ => ?_, fun h => h.append [s]⟩
  have mem : s' ∈ l := by
    rcases List.mem_append.mp mem with mem | mem
    · exact mem
    · exact List.mem_singleton.mp mem ▸ old
  exact ⟨mem, at_rank.trans (rank_append_of_mem mem [s])⟩

/-- A string that did not come before gets the next rank. -/
theorem ranks_concat (new : s ∉ l) : Ranks (l ++ [s]) s' x ↔
    Ranks l s' x ∨ s' = s ∧ x.index = l.dedup.length := by
  constructor
  · rintro ⟨mem, at_rank⟩
    rcases List.mem_append.mp mem with mem | mem
    · exact .inl ⟨mem, at_rank.trans (rank_append_of_mem mem [s])⟩
    · obtain rfl := List.mem_singleton.mp mem
      exact .inr ⟨rfl, at_rank.trans (rank_append_self new)⟩
  · rintro (h | ⟨rfl, last⟩)
    · exact h.append [s]
    · exact ⟨by simp, last.trans (rank_append_self new).symm⟩

end

/-! ## Lists as stores -/

namespace Interner

variable {t : Interner} {s : String}

theorem find?_eq_none_iff : t.find? s = none ↔ s ∉ t.strings := by
  rw [find?, Option.map_eq_none_iff, List.idxOf?_eq_none_iff]

/-- A new string comes last, and has the symbol of this place. -/
theorem store_adds {x : Symbol} (new : t.find? s = none) (last : x.index = t.size) :
    (t.intern s).1 = x ∧ store.Adds t s x (t.intern s).2 := by
  rcases t.intern_cases s with ⟨i, at_i, _⟩ | ⟨symbol, strings⟩
  · exact absurd (List.mem_of_getElem? at_i) (find?_eq_none_iff.mp new)
  have few : t.size < UInt32.size := last ▸ x.raw.toNat_lt
  have here : (⟨t.size.toUInt32⟩ : Symbol) = x :=
    Symbol.index_inj.mp ((Symbol.index_mk few).trans last.symm)
  refine ⟨symbol.trans here, fun u => ?_, fun y => ?_, ?_⟩
  · show (t.intern s).2.find? u = if u = s then some x else t.find? u
    rw [find?, strings, List.idxOf?, List.findIdx?_append]
    split
    next e =>
      have := List.idxOf?_eq_none_iff.mpr (find?_eq_none_iff.mp new)
      rw [List.idxOf?] at this
      subst e
      rw [this, ← here]
      simp [size]
    next ne =>
      rw [find?, List.idxOf?]
      simp [Ne.symm ne]
  · show (t.intern s).2.text? y = if y = x then some s else t.text? y
    rw [text?, strings, ← here]
    by_cases e : y = ⟨t.size.toUInt32⟩
    · subst e
      rw [if_pos rfl, Symbol.index_mk few, size]
      simp
    · have elsewhere : y.index ≠ t.strings.length := fun same =>
        e (Symbol.index_inj.mp (same.trans (Symbol.index_mk few).symm))
      rw [if_neg e, text?, List.getElem?_append]
      split
      · rfl
      · rw [List.getElem?_eq_none (by simp; omega), List.getElem?_eq_none (by omega)]
  · show (t.intern s).2.size = t.size + 1
    rw [size, strings, List.length_append]
    rfl

/-- As long as there is a symbol for every string, the store interns as `intern` does. -/
theorem store_intern (room : (t.intern s).2.size ≤ UInt32.size) :
    store.intern t s = some (t.intern s) := by
  rcases t.intern_cases s with ⟨i, at_i, e⟩ | ⟨_, strings⟩
  · have stored : t.find? s = some ⟨i.toUInt32⟩ := by
      rw [e] at room
      have lt := (List.getElem?_eq_some_iff.mp at_i).1
      rw [find?_eq_some_iff room, text?, Symbol.index_mk (Nat.lt_of_lt_of_le lt room), at_i]
    simp only [store, stored, e]
  · have new : t.find? s = none := by
      have nodup := (t.intern s).2.nodup
      rw [strings, List.nodup_append] at nodup
      exact find?_eq_none_iff.mpr fun mem => nodup.2.2 s mem s (List.mem_singleton_self s) rfl
    have few : t.size < UInt32.size := by
      rw [size, strings, List.length_append] at room
      exact room
    simp only [store, new, Symbol.ofIndex?, if_pos few, Option.map_some]

theorem store_lawful : store.Lawful where
  find?_empty _ := rfl
  text?_empty _ := rfl
  size_empty := rfl
  intern_stored t s x stored := by
    change t.find? s = some x at stored
    simp only [store, stored]
  intern_new t s x new next := by
    change t.find? s = none at new
    change Symbol.ofIndex? t.size = some x at next
    obtain ⟨symbol, added⟩ := store_adds new (Symbol.ofIndex?_eq_some_iff.mp next)
    refine ⟨(t.intern s).2, ?_, added⟩
    simp only [store, new, next, Option.map_some, ← symbol]
  intern_full t s new none_left := by
    change t.find? s = none at new
    change Symbol.ofIndex? t.size = none at none_left
    simp only [store, new, none_left, Option.map_none]

end Interner

namespace Store

variable {σ : Type} {S : Store σ} {t : S.Interner} {l : List String} {s : String} {x : Symbol}

/-! ## Numbering -/

/-- The interner has the strings of a list, each under the symbol of its rank in it. -/
structure Numbers (t : S.Interner) (l : List String) : Prop where
  find?_iff : ∀ s x, t.find? s = some x ↔ Ranks l s x
  text?_iff : ∀ s x, t.text? x = some s ↔ Ranks l s x
  size_eq : t.size = l.dedup.length

namespace Numbers

theorem empty (lawful : S.Lawful) : Numbers (.new S) [] where
  find?_iff s x := by simp [Interner.find?, Interner.new, lawful.find?_empty, Ranks]
  text?_iff s x := by simp [Interner.text?, Interner.new, lawful.text?_empty, Ranks]
  size_eq := lawful.size_empty

theorem again (h : Numbers t l) (old : s ∈ l) : Numbers t (l ++ [s]) where
  find?_iff u x := (h.find?_iff u x).trans (ranks_concat_of_mem old).symm
  text?_iff u x := (h.text?_iff u x).trans (ranks_concat_of_mem old).symm
  size_eq := h.size_eq.trans (length_dedup_concat_of_mem old).symm

theorem adds (h : Numbers t l) (new : s ∉ l) (last : x.index = l.dedup.length) {t' : S.Interner}
    (added : S.Adds t.store s x t'.store) : Numbers t' (l ++ [s]) where
  find?_iff u y := by
    rw [Interner.find?, added.find?, ranks_concat new, ← last, Symbol.index_inj]
    split
    next e =>
      subst e
      simp [Ranks, new, eq_comm]
    next ne => exact (h.find?_iff u y).trans (by simp [ne])
  text?_iff u y := by
    rw [Interner.text?, added.text?, ranks_concat new, ← last, Symbol.index_inj]
    split
    next e =>
      subst e
      have unranked : ¬ Ranks l u y := fun r => Nat.ne_of_lt r.index_lt last
      simp [unranked, eq_comm]
    next ne => exact (h.text?_iff u y).trans (by simp [ne])
  size_eq := by
    rw [length_dedup_concat new, ← h.size_eq]
    exact added.size

theorem find?_eq_none_iff (h : Numbers t l) (room : l.dedup.length ≤ UInt32.size) :
    t.find? s = none ↔ s ∉ l := by
  constructor
  · intro missing mem
    obtain ⟨x, hx⟩ := exists_ranks mem room
    cases missing.symm.trans ((h.find?_iff s x).mpr hx)
  · intro new
    rw [Option.eq_none_iff_forall_ne_some]
    intro x hx
    exact new ((h.find?_iff s x).mp hx).1

theorem text?_eq_none_iff (h : Numbers t l) : t.text? x = none ↔ l.dedup.length ≤ x.index := by
  rw [Option.eq_none_iff_forall_ne_some, ← Nat.not_lt]
  constructor
  · intro unknown lt
    obtain ⟨s, mem, at_rank⟩ := exists_rank_eq lt
    exact unknown s ((h.text?_iff s x).mpr ⟨mem, at_rank.symm⟩)
  · intro outside s hs
    exact outside ((h.text?_iff s x).mp hs).index_lt

/-- A string is answered the symbol of its rank, whether or not it came before. -/
theorem intern (lawful : S.Lawful) (h : Numbers t l) (s : String)
    (room : (l ++ [s]).dedup.length ≤ UInt32.size) :
    ∃ x t', t.intern s = some (x, t') ∧ Ranks (l ++ [s]) s x ∧ Numbers t' (l ++ [s]) := by
  by_cases old : s ∈ l
  · rw [length_dedup_concat_of_mem old] at room
    obtain ⟨x, hx⟩ := exists_ranks old room
    have stored := lawful.intern_stored _ _ _ ((h.find?_iff s x).mpr hx)
    refine ⟨x, t, ?_, hx.append [s], h.again old⟩
    rw [Interner.intern, stored, Option.map_some]
  · rw [length_dedup_concat old] at room
    have missing := (h.find?_eq_none_iff (Nat.le_of_succ_le room)).mpr old
    have last : (⟨l.dedup.length.toUInt32⟩ : Symbol).index = l.dedup.length := Symbol.index_mk room
    have next := Symbol.ofIndex?_eq_some_iff.mpr (last.trans h.size_eq.symm)
    obtain ⟨t', stored, added⟩ := lawful.intern_new _ _ _ missing next
    refine ⟨_, ⟨t'⟩, ?_, (ranks_concat old).mpr (.inr ⟨rfl, last⟩), h.adds old last added⟩
    rw [Interner.intern, stored, Option.map_some]

theorem intern_full (lawful : S.Lawful) (h : Numbers t l) (new : s ∉ l)
    (full : l.dedup.length = UInt32.size) : t.intern s = none := by
  have missing := (h.find?_eq_none_iff (Nat.le_of_eq full)).mpr new
  have none_left := Symbol.ofIndex?_eq_none_iff.mpr (Nat.le_of_eq (h.size_eq.trans full).symm)
  rw [Interner.intern, lawful.intern_full _ _ missing none_left, Option.map_none]

end Numbers

/-! ## Runs -/

variable {calls before after : List Call}

theorem interned_append (before after : List Call) :
    interned (before ++ after) = interned before ++ interned after := by
  induction before with
  | nil => rfl
  | cons c before ih => cases c <;> simp [interned, ih]

theorem mem_interned : s ∈ interned calls ↔ .intern s ∈ calls := by
  induction calls with
  | nil => simp [interned]
  | cons c calls ih => cases c <;> simp [interned, ih]

/-- Only a call that interns changes the interner. -/
theorem state_perform (t : S.Interner) (c : Call) (h : ∀ s, c ≠ .intern s) :
    (t.perform c).2 = t := by
  cases c with
  | intern s => exact absurd rfl (h s)
  | find | text | size => rfl

theorem perform_intern {t' : S.Interner} (h : t.intern s = some (x, t')) :
    t.perform (.intern s) = (some (.symbol x), t') := by
  rw [Interner.perform, h]

theorem Numbers.perform (lawful : S.Lawful) (h : Numbers t l) (c : Call)
    (room : (l ++ interned [c]).dedup.length ≤ UInt32.size) :
    Numbers (t.perform c).2 (l ++ interned [c]) := by
  cases c with
  | intern s =>
    obtain ⟨x, t', e, _, numbers⟩ := h.intern lawful s room
    rw [perform_intern e]
    exact numbers
  | find | text | size =>
    rw [state_perform t _ (by simp)]
    simpa [interned] using h

theorem Numbers.run (lawful : S.Lawful) (h : Numbers t l) (calls : List Call)
    (room : (l ++ interned calls).dedup.length ≤ UInt32.size) :
    Numbers (t.run calls) (l ++ interned calls) := by
  induction calls generalizing t l with
  | nil => simpa [Interner.run, interned] using h
  | cons c calls ih =>
    have split : l ++ interned (c :: calls) = l ++ interned [c] ++ interned calls := by
      rw [List.append_assoc, ← interned_append, List.singleton_append]
    rw [split] at room ⊢
    refine ih (h.perform lawful c (Nat.le_trans (length_dedup_le ?_) room)) room
    exact List.subset_append_left _ _

/-- The interner after any calls numbers the strings that they interned. -/
theorem numbers_run (lawful : S.Lawful) (calls : List Call)
    (room : (interned calls).dedup.length ≤ UInt32.size) :
    Numbers ((Interner.new S).run calls) (interned calls) :=
  (Numbers.empty lawful).run lawful calls room

theorem answer_intern (lawful : S.Lawful)
    (room : (interned before ++ [s]).dedup.length ≤ UInt32.size) :
    ∃ x, answer S before (.intern s) = some (.symbol x) ∧ Ranks (interned before ++ [s]) s x := by
  have prior := length_dedup_le (List.subset_append_left (interned before) [s])
  have numbers := numbers_run lawful before (Nat.le_trans prior room)
  obtain ⟨x, t', e, hx, _⟩ := numbers.intern lawful s room
  exact ⟨x, by rw [answer, perform_intern e], hx⟩

/-! ## Laws -/

theorem compare_index (x y : Symbol) : compare x y = compare x.index y.index := by
  change compareOfLessAndEq x.raw y.raw = compareOfLessAndEq x.raw.toNat y.raw.toNat
  simp only [compareOfLessAndEq, UInt32.lt_iff_toNat_lt, ← UInt32.toNat_inj]

/-- One of the calls interned the string and was answered the symbol. -/
def Gives (S : Store σ) (calls : List Call) (s : String) (x : Symbol) : Prop :=
  ∃ before after, calls = before ++ .intern s :: after ∧
    answer S before (.intern s) = some (.symbol x)

/-- Later calls do not change the symbol that an earlier one was answered. -/
theorem answer_intern_of_split (lawful : S.Lawful)
    (room : (interned calls).dedup.length ≤ UInt32.size)
    (split : calls = before ++ .intern s :: after) :
    ∃ x, answer S before (.intern s) = some (.symbol x) ∧ Ranks (interned calls) s x := by
  have strings : interned calls = interned before ++ [s] ++ interned after := by
    rw [split, interned_append, interned, List.append_cons]
  rw [strings] at room ⊢
  have prior := length_dedup_le (List.subset_append_left (interned before ++ [s]) (interned after))
  obtain ⟨x, e, hx⟩ := answer_intern lawful (Nat.le_trans prior room)
  exact ⟨x, e, hx.append _⟩

theorem gives_iff (lawful : S.Lawful) (room : (interned calls).dedup.length ≤ UInt32.size) :
    Gives S calls s x ↔ Ranks (interned calls) s x := by
  constructor
  · rintro ⟨before, after, split, e⟩
    obtain ⟨y, e', hy⟩ := answer_intern_of_split lawful room split
    cases e.symm.trans e'
    exact hy
  · intro hx
    obtain ⟨before, after, split⟩ := List.append_of_mem (mem_interned.mp hx.1)
    obtain ⟨y, e, hy⟩ := answer_intern_of_split lawful room split
    have same : y = x := Symbol.index_inj.mp (hy.2.trans hx.2.symm)
    exact ⟨before, after, split, same ▸ e⟩

/-- What a list of calls of a new interner says about the answers to them and to later ones. -/
structure Laws (S : Store σ) (calls : List Call) : Prop where
  /-- The symbol of a string is its rank, each time it is interned. -/
  symbol : ∀ before s after, calls = before ++ .intern s :: after →
    ∃ x, answer S before (.intern s) = some (.symbol x) ∧ x.index = rank s (interned calls)
  equal : ∀ s s' x x', Gives S calls s x → Gives S calls s' x' → (x = x' ↔ s = s')
  order : ∀ s s' x x', Gives S calls s x → Gives S calls s' x' →
    compare x x' = compare ((interned calls).idxOf s) ((interned calls).idxOf s')
  text : ∀ s x, Gives S calls s x → answer S calls (.text x) = some (.text s)
  find : ∀ s, ∃ found, answer S calls (.find s) = some (.found found) ∧
    ∀ x, found = some x ↔ Gives S calls s x
  size : answer S calls .size = some (.size (interned calls).dedup.length)
  unknown : ∀ x, answer S calls (.text x) = none ↔ (interned calls).dedup.length ≤ x.index
  /-- Once every symbol stands for a string, a further string is refused. -/
  full : ∀ s, s ∉ interned calls → (interned calls).dedup.length = UInt32.size →
    answer S calls (.intern s) = none
  /-- Calls that only ask leave the interner as it is. -/
  asks : ∀ c, (∀ s, c ≠ .intern s) →
    (((Interner.new S).run calls).perform c).2 = (Interner.new S).run calls

/-- As long as there are no more distinct strings than symbols, an interner over a store that keeps
its laws keeps those of interners. -/
theorem run_laws (lawful : S.Lawful) (calls : List Call)
    (room : (interned calls).dedup.length ≤ UInt32.size) : Laws S calls := by
  have numbers := numbers_run lawful calls room
  constructor
  case symbol =>
    intro before s after split
    obtain ⟨x, e, hx⟩ := answer_intern_of_split lawful room split
    exact ⟨x, e, hx.2⟩
  case equal =>
    intro s s' x x' hx hx'
    obtain ⟨mem, at_rank⟩ := (gives_iff lawful room).mp hx
    obtain ⟨mem', at_rank'⟩ := (gives_iff lawful room).mp hx'
    rw [← Symbol.index_inj, at_rank, at_rank', rank_inj mem mem']
  case order =>
    intro s s' x x' hx hx'
    obtain ⟨mem, at_rank⟩ := (gives_iff lawful room).mp hx
    obtain ⟨mem', at_rank'⟩ := (gives_iff lawful room).mp hx'
    rw [compare_index, at_rank, at_rank', compare_rank mem mem']
  case text =>
    intro s x hx
    have known := (numbers.text?_iff s x).mpr ((gives_iff lawful room).mp hx)
    rw [answer, Interner.perform, known, Option.map_some]
  case find =>
    intro s
    refine ⟨_, rfl, fun x => ?_⟩
    rw [numbers.find?_iff, gives_iff lawful room]
  case size => rw [← numbers.size_eq]; rfl
  case unknown =>
    intro x
    rw [← numbers.text?_eq_none_iff, answer, Interner.perform, Option.map_eq_none_iff]
  case full =>
    intro s new full
    rw [answer, Interner.perform, numbers.intern_full lawful new full]
  case asks => exact fun c hc => state_perform _ c hc

theorem run_laws_sample :
    Fabric.Interner.store.Lawful ∧
    (interned [.intern "LUT", .find "FF", .intern "FF", .text ⟨1⟩, .intern "LUT"]).dedup.length
      ≤ UInt32.size ∧
    Laws Fabric.Interner.store
      [.intern "LUT", .find "FF", .intern "FF", .text ⟨1⟩, .intern "LUT"] :=
  ⟨Fabric.Interner.store_lawful, by decide,
    run_laws Fabric.Interner.store_lawful _ (by decide)⟩

end Store

end Fabric
