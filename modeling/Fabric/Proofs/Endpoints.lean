import Fabric.Description.Endpoints
import Fabric.Outcome
import Fabric.SortedMap.Lemmas
import Mathlib.Data.List.Forall2
import Mathlib.Data.List.Induction
/-!
Resolution of endpoints, in any description. A pip that names declared wires gets the positions of
the last wires of these names; the first pip that names another wire is answered, with the first
such name (`endpoints_decides`). Names of wires may repeat: the search finds what an index holds
into which the wires are entered in order.
-/

namespace Fabric

/-! ## Last positions -/

/-- The position is the last one of a name. -/
structure IsLast (names : List String) (name : String) (i : Nat) : Prop where
  named : names[i]? = some name
  last : ∀ j, names[j]? = some name → j ≤ i

theorem IsLast.unique {names : List String} {name : String} {i j : Nat} (h : IsLast names name i)
    (h' : IsLast names name j) : i = j :=
  Nat.le_antisymm (h'.last i h.named) (h.last j h'.named)

theorem isLast_of_lastIndex? {name : String} {names : List String} {i : Nat}
    (h : lastIndex? name names = some i) : IsLast names name i := by
  induction names generalizing i with
  | nil => cases h
  | cons n r ih =>
    unfold lastIndex? at h
    split at h
    next k hk =>
      -- The rest has the name, so its last position there counts, and not the head.
      cases h
      refine ⟨(ih hk).named, fun j hj => ?_⟩
      cases j with
      | zero => exact Nat.zero_le _
      | succ j => exact Nat.succ_le_succ ((ih hk).last j hj)
    next none =>
      split at h
      next e =>
        cases h
        refine ⟨congrArg some e, fun j hj => ?_⟩
        cases j with
        | zero => exact Nat.le_refl 0
        | succ j =>
          rw [List.getElem?_cons_succ] at hj
          exact absurd (List.mem_of_getElem? hj) (lastIndex?_eq_none_iff.mp none)
      · cases h

theorem lastIndex?_eq_some_iff {name : String} {names : List String} {i : Nat} :
    lastIndex? name names = some i ↔ IsLast names name i := by
  refine ⟨isLast_of_lastIndex?, fun h => ?_⟩
  cases found : lastIndex? name names with
  | none => exact absurd (List.mem_of_getElem? h.named) (lastIndex?_eq_none_iff.mp found)
  | some j => exact congrArg some ((isLast_of_lastIndex? found).unique h)

theorem exists_isLast_iff {name : String} {names : List String} :
    (∃ i, IsLast names name i) ↔ name ∈ names := by
  simp only [← lastIndex?_eq_some_iff, ← Option.isSome_iff_exists, Option.isSome_iff_ne_none,
    ne_eq, lastIndex?_eq_none_iff, Decidable.not_not]

theorem lastIndex?_append_singleton (name : String) (names : List String) (n : String) :
    lastIndex? name (names ++ [n]) =
      if name = n then some names.length else lastIndex? name names := by
  induction names with
  | nil => simp [lastIndex?, eq_comm]
  | cons m names ih =>
    rw [List.cons_append, lastIndex?, ih]
    by_cases h : name = n
    · simp [h]
    · simp [h, lastIndex?]

/-- An index holds the last position of each name, if the names are entered from left to right. -/
theorem get?_ofList_zipIdx (names : List String) (name : String) :
    (SortedMap.ofList names.zipIdx).get? name = lastIndex? name names := by
  -- The index grows by the last name, so the induction takes the last name off.
  induction names using List.reverseRecOn with
  | nil => rfl
  | append_singleton names n ih =>
    rw [lastIndex?_append_singleton, ← ih, ← SortedMap.get?_insert]
    simp [SortedMap.ofList, List.zipIdx_append]

namespace Description

variable {d : Description}

/-- Both ends of a pip are wires of the description. -/
def Declares (d : Description) (p : PipEntry) : Prop :=
  p.source ∈ d.wireNames ∧ p.target ∈ d.wireNames

instance (d : Description) (p : PipEntry) : Decidable (d.Declares p) :=
  inferInstanceAs (Decidable (_ ∧ _))

/-- The first end of a pip, the source before the target, that is no wire of the description. -/
inductive UndeclaredEnd (d : Description) (p : PipEntry) : String → Prop
  | source (h : p.source ∉ d.wireNames) : UndeclaredEnd d p p.source
  | target (h : p.source ∈ d.wireNames) (h' : p.target ∉ d.wireNames) : UndeclaredEnd d p p.target

/-- The endpoints are the positions of the last wires that have the names of a pip. -/
structure ResolvesLast (d : Description) (p : PipEntry) (e : Endpoints) : Prop where
  source : IsLast d.wireNames p.source e.source
  target : IsLast d.wireNames p.target e.target

/-- The first pip of a list with an undeclared end, and the name at this end. -/
structure FirstUndeclared (d : Description) (l : List PipEntry) (p : PipEntry) (wire : String) :
    Prop where
  first : l.find? (fun q => ¬ d.Declares q) = some p
  undeclared : d.UndeclaredEnd p wire

/-! ## One pip -/

theorem wireOf_eq_ok_iff {pip wire : String} {i : Nat} :
    d.wireOf pip wire = .ok i ↔ IsLast d.wireNames wire i := by
  rw [← lastIndex?_eq_some_iff, wireOf]
  split
  next j hj => simp [hj]
  next none => simp [none]

theorem wireOf_eq_error_iff {pip wire : String} {fault : Fault} :
    d.wireOf pip wire = .error fault ↔ wire ∉ d.wireNames ∧ fault = .unknownWire pip wire := by
  rw [← lastIndex?_eq_none_iff, wireOf]
  split
  next j hj => simp [hj]
  next none => simp [none, eq_comm]

theorem endpointsOf_eq_ok_iff {p : PipEntry} {e : Endpoints} :
    d.endpointsOf p = .ok e ↔ d.ResolvesLast p e := by
  simp only [endpointsOf, bind_eq_ok_iff_exists, wireOf_eq_ok_iff]
  constructor
  · rintro ⟨source, hs, target, ht, same⟩
    cases same
    exact ⟨hs, ht⟩
  · intro h
    exact ⟨e.source, h.source, e.target, h.target, rfl⟩

theorem endpointsOf_eq_error_iff {p : PipEntry} {fault : Fault} : d.endpointsOf p = .error fault ↔
    ∃ wire, d.UndeclaredEnd p wire ∧ fault = .unknownWire p.name wire := by
  simp only [endpointsOf, bind_eq_error_iff_exists, wireOf_eq_error_iff, wireOf_eq_ok_iff]
  constructor
  · rintro (⟨source, rfl⟩ | ⟨i, source, ⟨target, rfl⟩ | ⟨j, _, impossible⟩⟩)
    · exact ⟨_, .source source, rfl⟩
    · exact ⟨_, .target (exists_isLast_iff.mp ⟨i, source⟩) target, rfl⟩
    · cases impossible
  · rintro ⟨wire, source | ⟨source, target⟩, rfl⟩
    · exact .inl ⟨source, rfl⟩
    · obtain ⟨i, hi⟩ := exists_isLast_iff.mpr source
      exact .inr ⟨i, hi, .inl ⟨target, rfl⟩⟩

theorem exists_resolvesLast_iff {p : PipEntry} : (∃ e, d.ResolvesLast p e) ↔ d.Declares p := by
  constructor
  · rintro ⟨e, h⟩
    exact ⟨exists_isLast_iff.mp ⟨_, h.source⟩, exists_isLast_iff.mp ⟨_, h.target⟩⟩
  · rintro ⟨source, target⟩
    obtain ⟨i, hi⟩ := exists_isLast_iff.mpr source
    obtain ⟨j, hj⟩ := exists_isLast_iff.mpr target
    exact ⟨⟨i, j⟩, hi, hj⟩

theorem UndeclaredEnd.not_declares {p : PipEntry} {wire : String} (h : d.UndeclaredEnd p wire) :
    ¬ d.Declares p := by
  rintro ⟨source, target⟩
  cases h with
  | source h => exact h source
  | target _ h => exact h target

/-! ## Many pips -/

theorem endpointsOfAll_eq_ok_iff {l : List PipEntry} {es : List Endpoints} :
    d.endpointsOfAll l = .ok es ↔ List.Forall₂ d.ResolvesLast l es := by
  induction l generalizing es with
  | nil => simp [endpointsOfAll, eq_comm]
  | cons p l ih =>
    simp only [endpointsOfAll, bind_eq_ok_iff_exists, endpointsOf_eq_ok_iff, ih,
      List.forall₂_cons_left_iff]
    constructor
    · rintro ⟨e, first, es', rest, same⟩
      cases same
      exact ⟨e, es', first, rest, rfl⟩
    · rintro ⟨e, es', first, rest, rfl⟩
      exact ⟨e, first, es', rest, rfl⟩

theorem firstUndeclared_cons_iff {p q : PipEntry} {l : List PipEntry} {wire : String} :
    d.FirstUndeclared (p :: l) q wire ↔
      p = q ∧ d.UndeclaredEnd p wire ∨ d.Declares p ∧ d.FirstUndeclared l q wire := by
  by_cases declared : d.Declares p
  · constructor
    · rintro ⟨first, undeclared⟩
      exact .inr ⟨declared, by simpa [declared] using first, undeclared⟩
    · rintro (⟨rfl, undeclared⟩ | ⟨_, first, undeclared⟩)
      · exact absurd declared undeclared.not_declares
      · exact ⟨by simpa [declared] using first, undeclared⟩
  · constructor
    · rintro ⟨first, undeclared⟩
      obtain rfl : p = q := by simpa [declared] using first
      exact .inl ⟨rfl, undeclared⟩
    · rintro (⟨rfl, undeclared⟩ | ⟨h, _⟩)
      · exact ⟨by simp [declared], undeclared⟩
      · exact absurd h declared

theorem firstUndeclared_iff {l : List PipEntry} {p : PipEntry} {wire : String} :
    d.FirstUndeclared l p wire ↔ ∃ before after, l = before ++ p :: after ∧
      (∀ q ∈ before, d.Declares q) ∧ d.UndeclaredEnd p wire := by
  constructor
  · rintro ⟨first, undeclared⟩
    obtain ⟨_, before, after, split, declared⟩ := List.find?_eq_some_iff_append.mp first
    exact ⟨before, after, split, by simpa using declared, undeclared⟩
  · rintro ⟨before, after, split, declared, undeclared⟩
    refine ⟨List.find?_eq_some_iff_append.mpr ⟨?_, before, after, split, ?_⟩, undeclared⟩
    · simpa using undeclared.not_declares
    · simpa using declared

theorem endpointsOfAll_eq_error_iff {l : List PipEntry} {fault : Fault} :
    d.endpointsOfAll l = .error fault ↔
      ∃ p wire, d.FirstUndeclared l p wire ∧ fault = .unknownWire p.name wire := by
  induction l with
  | nil =>
    constructor
    · intro h
      cases h
    · rintro ⟨p, wire, h, _⟩
      cases h.first
  | cons p l ih =>
    simp only [endpointsOfAll, bind_eq_error_iff_exists, endpointsOf_eq_error_iff,
      endpointsOf_eq_ok_iff, ih, firstUndeclared_cons_iff]
    constructor
    · rintro (⟨wire, undeclared, rfl⟩ | ⟨e, first, ⟨q, wire, rest, rfl⟩ | ⟨es, _, impossible⟩⟩)
      · exact ⟨p, wire, .inl ⟨rfl, undeclared⟩, rfl⟩
      · exact ⟨q, wire, .inr ⟨exists_resolvesLast_iff.mp ⟨e, first⟩, rest⟩, rfl⟩
      · cases impossible
    · rintro ⟨q, wire, ⟨rfl, undeclared⟩ | ⟨declared, rest⟩, rfl⟩
      · exact .inl ⟨wire, undeclared, rfl⟩
      · obtain ⟨e, first⟩ := exists_resolvesLast_iff.mpr declared
        exact .inr ⟨e, first, .inl ⟨q, wire, rest, rfl⟩⟩

theorem exists_forall₂_resolvesLast_iff {l : List PipEntry} :
    (∃ es, List.Forall₂ d.ResolvesLast l es) ↔ ∀ p ∈ l, d.Declares p := by
  induction l with
  | nil => simp
  | cons p l ih =>
    rw [List.forall_mem_cons, ← exists_resolvesLast_iff, ← ih]
    simp only [List.forall₂_cons_left_iff]
    constructor
    · rintro ⟨_, e, es, first, rest, rfl⟩
      exact ⟨⟨e, first⟩, es, rest⟩
    · rintro ⟨⟨e, first⟩, es, rest⟩
      exact ⟨e :: es, e, es, first, rest, rfl⟩

theorem endpoints_eq_ok_iff {es : List Endpoints} :
    d.endpoints = .ok es ↔ List.Forall₂ d.ResolvesLast d.pips es :=
  endpointsOfAll_eq_ok_iff

theorem endpoints_eq_error_iff {fault : Fault} : d.endpoints = .error fault ↔
    ∃ p wire, d.FirstUndeclared d.pips p wire ∧ fault = .unknownWire p.name wire :=
  endpointsOfAll_eq_error_iff

theorem exists_endpoints_iff : (∃ es, d.endpoints = .ok es) ↔ ∀ p ∈ d.pips, d.Declares p := by
  simp only [endpoints_eq_ok_iff, exists_forall₂_resolvesLast_iff]

/-- If not all pips of a description name its wires, there is a first one that does not. -/
theorem exists_firstUndeclared (h : ¬ ∀ p ∈ d.pips, d.Declares p) :
    ∃ p wire, d.FirstUndeclared d.pips p wire := by
  cases run : d.endpoints with
  | ok es => exact absurd (exists_endpoints_iff.mp ⟨es, run⟩) h
  | error fault =>
    obtain ⟨p, wire, first, _⟩ := endpoints_eq_error_iff.mp run
    exact ⟨p, wire, first⟩

/-- The wires by name, entered in order. Of wires with one name the last is found. -/
def wireIndex (d : Description) : SortedMap String Nat := .ofList d.wireNames.zipIdx

/-- The endpoints of a description are found exactly if its pips name its wires only. There is then
one pair for each pip, in order, with the last positions of both names; these are what an index of
the wires holds. Otherwise the first pip with an undeclared end is answered, and that end of it, the
source before the target; there is no other answer. -/
theorem endpoints_decides (d : Description) :
    ((∃ es, d.endpoints = .ok es) ↔ ∀ p ∈ d.pips, d.Declares p) ∧
    (∀ es, d.endpoints = .ok es ↔ List.Forall₂ d.ResolvesLast d.pips es) ∧
    (∀ pip wire i, d.wireOf pip wire = .ok i ↔ d.wireIndex.get? wire = some i) ∧
    ∀ fault, d.endpoints = .error fault ↔
      ∃ p wire, d.FirstUndeclared d.pips p wire ∧ fault = .unknownWire p.name wire := by
  refine ⟨exists_endpoints_iff, fun es => endpoints_eq_ok_iff, fun pip wire i => ?_,
    fun fault => endpoints_eq_error_iff⟩
  rw [wireOf_eq_ok_iff, wireIndex, get?_ofList_zipIdx, lastIndex?_eq_some_iff]

/-- The third wire takes the place of the first. -/
example : endpoints ⟨"generic", "twice", [], [⟨"W0", none, ∅⟩, ⟨"W1", none, ∅⟩, ⟨"W0", none, ∅⟩],
    [⟨"P0", "W0", "W1", none, ∅⟩]⟩ = .ok [⟨2, 1⟩] := by decide

end Description

end Fabric
