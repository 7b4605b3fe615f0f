/-!
Handles. The n-th entry of a table is named by the 32-bit word `n`; the word of all ones is the
null handle, which names nothing. A handle carries the kind of what it names, so that a wire is
never looked up among the sites.
-/

namespace Fabric

/-- What a handle names: five kinds of device resources, and the two kinds of design objects. -/
inductive Kind where
  | site | wire | pip | group | decal | cell | net
  deriving DecidableEq, Repr

namespace Kind

def all : List Kind := [.site, .wire, .pip, .group, .decal, .cell, .net]

/-- The word for one thing of the kind. -/
def noun : Kind → String
  | site => "site"
  | wire => "wire"
  | pip => "pip"
  | group => "group"
  | decal => "decal"
  | cell => "cell"
  | net => "net"

/-- The label in front of a handle in its long form. -/
def label : Kind → String
  | site => "SiteId"
  | wire => "WireId"
  | pip => "PipId"
  | group => "GroupId"
  | decal => "DecalId"
  | cell => "CellId"
  | net => "NetId"

def ofLabel? (s : String) : Option Kind := all.find? (·.label == s)

theorem ofLabel?_label (k : Kind) : ofLabel? k.label = some k := by cases k <;> decide

end Kind

structure Handle (kind : Kind) where
  raw : UInt32
  deriving DecidableEq, Repr

/-- A place on the device that can hold one cell. -/
abbrev Site := Handle .site
/-- A routing wire of the device. -/
abbrev Wire := Handle .wire
/-- A programmable connection that drives one wire from another. -/
abbrev Pip := Handle .pip
/-- A group of device resources. -/
abbrev Group := Handle .group
/-- A drawing of a device resource. -/
abbrev Decal := Handle .decal
/-- A cell of a netlist. -/
abbrev CellRef := Handle .cell
/-- A net of a netlist. -/
abbrev NetRef := Handle .net

namespace Handle

variable {k : Kind}

def null : Handle k := ⟨0xFFFFFFFF⟩

def isNull (h : Handle k) : Bool := h = null

/-- The handle of the entry at position `n`. Positions are counted in 32 bits. -/
def ofIndex (n : Nat) : Handle k := ⟨n.toUInt32⟩

/-- The position that the handle names in its table. -/
def index (h : Handle k) : Nat := h.raw.toNat

/-- The handles of a table with `n` entries, in order. Positions are counted in 32 bits. -/
def firstN (k : Kind) (n : Nat) : List (Handle k) := (List.range n.toUInt32.toNat).map ofIndex

instance : Ord (Handle k) := ⟨compareOn Handle.raw⟩

instance : Std.TransOrd (Handle k) := inferInstanceAs (Std.TransCmp (compareOn Handle.raw))

instance : Std.LawfulEqOrd (Handle k) where
  eq_of_compare {a b} h := by
    have : a.raw = b.raw := Std.LawfulEqOrd.eq_of_compare h
    cases a; cases b; cases this; rfl

/-- The text of a handle in a message: its number, or a word for the null handle. -/
def text (h : Handle k) : String := if h.isNull then "<invalid>" else toString h.index

/-- The long form of a handle, with its kind and always with its number. -/
def longText (h : Handle k) : String := s!"{k.label}({h.index})"

instance : ToString (Handle k) := ⟨text⟩

@[simp] theorem isNull_iff (h : Handle k) : h.isNull = true ↔ h = null := by simp [isNull]

theorem index_lt (h : Handle k) : h.index < UInt32.size := h.raw.toNat_lt

theorem index_ofIndex {n : Nat} (h : n < UInt32.size) : (ofIndex n : Handle k).index = n :=
  UInt32.toNat_ofNat_of_lt' h

@[simp] theorem ofIndex_index (h : Handle k) : ofIndex h.index = h := by
  simp [ofIndex, index]

theorem index_inj {a b : Handle k} : a.index = b.index ↔ a = b :=
  ⟨fun h => by rw [← ofIndex_index a, h, ofIndex_index], congrArg _⟩

/-- Positions from 2^32 on come round to those before. -/
theorem index_ofIndex_mod (n : Nat) : (ofIndex n : Handle k).index = n % UInt32.size :=
  UInt32.toNat_ofNat

theorem ofIndex_eq_iff {i n : Nat} :
    (ofIndex i : Handle k) = ofIndex n ↔ i % UInt32.size = n % UInt32.size := by
  rw [← index_inj, index_ofIndex_mod, index_ofIndex_mod]

theorem ofIndex_inj {i n : Nat} (hi : i < UInt32.size) (hn : n < UInt32.size) :
    (ofIndex i : Handle k) = ofIndex n ↔ i = n := by
  rw [ofIndex_eq_iff, Nat.mod_eq_of_lt hi, Nat.mod_eq_of_lt hn]

/-- Only the last of each 2^32 positions has the null handle. -/
theorem isNull_ofIndex (n : Nat) :
    (ofIndex n : Handle k).isNull = true ↔ n % UInt32.size = UInt32.size - 1 := by
  rw [isNull_iff, ← index_inj, index_ofIndex_mod]
  rfl

theorem firstN_eq {n : Nat} (few : n < UInt32.size) : firstN k n = (List.range n).map ofIndex := by
  rw [firstN, UInt32.toNat_ofNat_of_lt' few]

theorem mem_firstN_iff {n : Nat} (few : n < UInt32.size) {h : Handle k} :
    h ∈ firstN k n ↔ h.index < n := by
  simp only [firstN_eq few, List.mem_map, List.mem_range]
  constructor
  · rintro ⟨i, lt, rfl⟩
    rwa [index_ofIndex (Nat.lt_trans lt few)]
  · intro lt
    exact ⟨h.index, lt, ofIndex_index h⟩

theorem contains_firstN {n : Nat} (few : n < UInt32.size) (h : Handle k) :
    (firstN k n).contains h = decide (h.index < n) := by
  rw [List.contains_eq_mem]
  exact decide_eq_decide.mpr (mem_firstN_iff few)

/-! ## Tables -/

/-- The entries of a table know their handles. -/
def Numbers {α : Type} (id : α → Handle k) (table : List α) : Prop :=
  ∀ i a, table[i]? = some a → id a = ofIndex i

namespace Numbers

variable {α : Type} {id : α → Handle k} {table : List α} {a : α}

theorem nil : Numbers id [] := nofun

theorem push (h : Numbers id table) (ha : id a = ofIndex table.length) :
    Numbers id (table ++ [a]) := by
  intro i b hb
  rw [List.getElem?_append] at hb
  split at hb
  · exact h i b hb
  · have last : i = table.length := by
      have := (List.getElem?_eq_some_iff.mp hb).1
      simp only [List.length_singleton] at this
      omega
    simp only [last, Nat.sub_self, List.getElem?_cons_zero, Option.some.injEq] at hb
    rw [last, ← hb, ha]

theorem set (h : Numbers id table) {r : Handle k} (ha : id a = r) :
    Numbers id (table.set r.index a) := by
  intro i b hb
  rw [List.getElem?_set] at hb
  split at hb
  next e =>
    split at hb
    · cases hb
      rw [ha, ← e, ofIndex_index]
    · cases hb
  · exact h i b hb

theorem map (h : Numbers id table) {f : α → α} (same : ∀ a, id (f a) = id a) :
    Numbers id (table.map f) := by
  intro i b hb
  rw [List.getElem?_map] at hb
  obtain ⟨a, ha, rfl⟩ := Option.map_eq_some_iff.mp hb
  rw [same, h i a ha]

/-- The entry under a handle has this handle. -/
theorem id_eq (h : Numbers id table) {r : Handle k} (ha : table[r.index]? = some a) : id a = r := by
  rw [h _ a ha, ofIndex_index]

end Numbers

end Handle

end Fabric
