import Fabric.Proofs.Tables
import Mathlib.Data.List.Induction
/-!
Additions to a chip under construction. With room in the interner, an entry with a new name is
accepted and stands in its table from then on, and one whose name is taken is refused; nothing else
can happen. For what is added is patched under its handle, and a table has fewer rows than there are
handles: the patch finds the row, which comes out as the entry has it (`enterSite_eq_ok`). So a list
of entries with distinct names is added as a whole, and any other list up to the first name that is
there before.
-/

namespace Fabric

open Description

/-- The name is the first in the list that was there before. -/
def FirstRepeated (names : List String) (n : String) : Prop :=
  ∃ before after, names = before ++ n :: after ∧ before.Nodup ∧ n ∈ before

theorem exists_firstRepeated {names : List String} (h : ¬ names.Nodup) :
    ∃ n, FirstRepeated names n := by
  induction names using List.reverseRecOn with
  | nil => exact absurd .nil h
  | append_singleton names n ih =>
    by_cases distinct : names.Nodup
    · refine ⟨n, names, [], rfl, distinct, Classical.byContradiction fun other => h ?_⟩
      exact distinct.append (List.nodup_singleton n) (List.disjoint_singleton.mpr other)
    · obtain ⟨m, before, after, rfl, first⟩ := ih distinct
      exact ⟨m, before, after ++ [n], by simp, first⟩

/-! ## Patches of new rows -/

namespace Chip

variable {c : Chip}

theorem rewrite_concat {ρ : Type} (rows : List ρ) (row : ρ) (f : ρ → ρ) :
    rewrite (rows ++ [row]) rows.length f = .ok (rows ++ [f row]) := by
  have last : (rows ++ [row]).modify rows.length f = rows ++ [f row] := by
    induction rows with
    | nil => rfl
    | cons first rows ih => exact congrArg (first :: ·) ih
  rw [rewrite, last]
  exact if_pos (by simp)

theorem patchSite_appendSite (few : c.sites.length < UInt32.size) {row : SiteRow}
    {f : SiteRow → SiteRow} (name : (f row).name = row.name) :
    (c.appendSite row).patchSite (.ofIndex c.sites.length) f = .ok (c.appendSite (f row)) := by
  rw [patchSite, Handle.index_ofIndex few, appendSite, rewrite_concat, appendSite, name]
  rfl

theorem patchWire_appendWire (few : c.wires.length < UInt32.size) {row : WireRow}
    {f : WireRow → WireRow} (name : (f row).name = row.name) :
    (c.appendWire row).patchWire (.ofIndex c.wires.length) f = .ok (c.appendWire (f row)) := by
  rw [patchWire, Handle.index_ofIndex few, appendWire, rewrite_concat, appendWire, name]
  rfl

theorem patchPip_appendPip (few : c.pips.length < UInt32.size) {row : PipRow}
    {f : PipRow → PipRow} (name : (f row).name = row.name) (source : (f row).source = row.source)
    (target : (f row).target = row.target) :
    (c.appendPip row).patchPip (.ofIndex c.pips.length) f = .ok (c.appendPip (f row)) := by
  rw [patchPip, Handle.index_ofIndex few, appendPip, rewrite_concat, appendPip, name, source,
    target]
  rfl

end Chip

namespace Draft

variable {d d' d'' : Draft} {new : List String}

/-! ## Interning -/

/-- What interning does to a draft: its interner grows without running out of room. -/
structure Grown (new : List String) (d d' : Draft) : Prop where
  le : d.names ≤ d'.names
  room : d'.names.Fits new

theorem Grown.trans (h : Grown new d d') (h' : Grown new d' d'') : Grown new d d'' :=
  ⟨h.le.trans h'.le, h'.room⟩

section
variable (room : d.names.Fits new)
include room

theorem grown_intern {s : String} (hs : s ∈ new) : Grown new d (d.intern s).2 :=
  ⟨d.names.le_intern s, room.intern hs⟩

theorem text?_intern {s : String} (hs : s ∈ new) :
    (d.intern s).2.names.text? (d.intern s).1 = some s :=
  room.text?_intern hs

theorem grown_internOptional {s : Option String} (hs : s.toList ⊆ new) :
    Grown new d (d.internOptional s).2 := by
  cases s with
  | none => exact ⟨le_refl _, room⟩
  | some s => exact grown_intern room (hs (by simp))

theorem map_text?_internOptional {s : Option String} (hs : s.toList ⊆ new) :
    (d.internOptional s).1.map (d.internOptional s).2.names.text? = s.map some := by
  cases s with
  | none => rfl
  | some s => exact congrArg some (text?_intern room (hs (by simp)))

theorem grown_internAttributes {attributes : Attributes} (hs : attributes.keys ⊆ new) :
    Grown new d (d.internAttributes attributes).2 :=
  ⟨d.names.le_internAll _, room.internAll hs⟩

theorem spells_internAttributes {attributes : Attributes} (hs : attributes.keys ⊆ new) :
    Chip.SpellsAttributes (d.internAttributes attributes).2.names
      (d.internAttributes attributes).1 attributes :=
  Chip.forall₂_zip_of_map_text? (room.map_text?_internAll hs)

/-- The strings of an entry of any kind, from left to right. -/
theorem spelled_entry {name : String} {type : Option String} {attributes : Attributes}
    {x : Symbol} {y : Option Symbol} {z : List Attribute} {d₁ d₂ d₃ : Draft}
    (hx : d.intern name = (x, d₁)) (hy : d₁.internOptional type = (y, d₂))
    (hz : d₂.internAttributes attributes = (z, d₃))
    (given : name :: (type.toList ++ attributes.keys) ⊆ new) :
    Grown new d d₃ ∧ d₃.names.text? x = some name ∧ y.map d₃.names.text? = type.map some ∧
      Chip.SpellsAttributes d₃.names z attributes := by
  rw [List.cons_subset, List.append_subset] at given
  obtain ⟨hname, htype, hattributes⟩ := given
  have first := grown_intern room hname
  have x_text := text?_intern room hname
  rw [hx] at first x_text
  have second := grown_internOptional first.room htype
  have y_text := map_text?_internOptional first.room htype
  rw [hy] at second y_text
  have third := grown_internAttributes second.room hattributes
  have z_text := spells_internAttributes second.room hattributes
  rw [hz] at third z_text
  exact ⟨first.trans (second.trans third),
    Interner.text?_mono (second.le.trans third.le) x_text, Chip.map_text?_mono y_text third.le,
    z_text⟩

/-- Interned after the entries of a table, a name is in their index if one of them has it. -/
theorem contains_intern_iff {ρ ε : Type} {k : Kind} {σ : Chip.Spelling ρ ε} {rows : List ρ}
    {index : SortedMap Symbol (Handle k)} {entries : List ε}
    (table : Chip.Tabled σ d.names rows index entries) {s : String} (hs : s ∈ new) :
    index.contains (d.intern s).1 = true ↔ s ∈ entries.map σ.entryName :=
  (table.mono (grown_intern room hs).le).contains_iff (text?_intern room hs)

end

/-! ## Two steps -/

section
variable {x : Symbol} {z : List Attribute} {d₁ d₂ d₃ : Draft}

/-- Strings are interned the same whatever the chip is. -/
theorem internAttributes_with (d : Draft) (chip : Chip) (given : Attributes) :
    ({ d with chip } : Draft).internAttributes given =
      ((d.internAttributes given).1, { (d.internAttributes given).2 with chip }) :=
  rfl

theorem internOptional_with (d : Draft) (chip : Chip) (s : Option String) :
    ({ d with chip } : Draft).internOptional s =
      ((d.internOptional s).1, { (d.internOptional s).2 with chip }) := by
  cases s <;> rfl

/-- A site with a new name is appended by the two steps, with the row that the entry has. -/
theorem enterSite_eq_ok {e : SiteEntry} {y : Symbol} (few : d.chip.sites.length < UInt32.size)
    (hx : d.intern e.name = (x, d₁)) (free : d.chip.siteByName.contains x = false)
    (hy : d₁.intern e.type = (y, d₂)) (hz : d₂.internAttributes e.attributes = (z, d₃)) :
    d.enterSite e =
      .ok { d₃ with chip := d.chip.appendSite ⟨x, y, e.hidden, e.globalBuffer, z⟩ } := by
  have chip₁ : d₁.chip = d.chip := congrArg (·.2.chip) hx.symm
  have chip₂ : d₂.chip = d.chip := (congrArg (·.2.chip) hy.symm).trans chip₁
  have added : d.addSite e.name e.type =
      .accept { d₂ with chip := d.chip.appendSite ⟨x, y, false, false, []⟩ }
        (.ofIndex d.chip.sites.length) := by
    simp only [addSite, hx, hy, chip₁, chip₂, free, Bool.false_eq_true, if_false]
  rw [enterSite, added, Outcome.accept, patched, patchSite, internAttributes_with, hz]
  dsimp only
  rw [Chip.patchSite_appendSite few rfl]
  rfl

theorem enterSite_eq_error {e : SiteEntry}
    (taken : d.chip.siteByName.contains (d.intern e.name).1 = true) :
    d.enterSite e = .error (.fault (.rejected (.duplicateName .site e.name))) := by
  have refused : d.addSite e.name e.type =
      .refuse (d.intern e.name).2 (.duplicateName .site e.name) :=
    if_pos taken
  rw [enterSite, refused]
  rfl

/-- For a site of nothing but a name and a type the addition does it alone. -/
theorem enterSite_plain {e : SiteEntry} (plain : e.Plain) (few : d.chip.sites.length < UInt32.size)
    (run : d.enterSite e = .ok d') :
    d' = (d.addSite e.name e.type).state ∧ d'.chip.sites.length = d.chip.sites.length + 1 := by
  obtain ⟨name, type, hidden, globalBuffer, attributes⟩ := e
  obtain ⟨rfl, rfl, rfl⟩ := plain
  cases taken : d.chip.siteByName.contains (d.intern name).1 with
  | true => cases run.symm.trans (enterSite_eq_error taken)
  | false =>
    cases run.symm.trans (enterSite_eq_ok few rfl taken rfl rfl)
    constructor
    · simp [addSite, taken]
      rfl
    · simp [Chip.appendSite]

theorem enterWire_eq_ok {e : WireEntry} {y : Option Symbol}
    (few : d.chip.wires.length < UInt32.size) (hx : d.intern e.name = (x, d₁))
    (free : d.chip.wireByName.contains x = false) (hy : d₁.internOptional e.type = (y, d₂))
    (hz : d₂.internAttributes e.attributes = (z, d₃)) :
    d.enterWire e = .ok { d₃ with chip := d.chip.appendWire ⟨x, y, z, [], []⟩ } := by
  have chip₁ : d₁.chip = d.chip := congrArg (·.2.chip) hx.symm
  have chip₂ : d₂.chip = d.chip := by rw [← chip₁, ← chip_internOptional d₁, hy]
  have added : d.addWire e.name e.type =
      .accept { d₂ with chip := d.chip.appendWire ⟨x, y, [], [], []⟩ }
        (.ofIndex d.chip.wires.length) := by
    simp only [addWire, hx, hy, chip₁, chip₂, free, Bool.false_eq_true, if_false]
  rw [enterWire, added, Outcome.accept, patched, patchWire, internAttributes_with, hz]
  dsimp only
  rw [Chip.patchWire_appendWire few rfl]
  rfl

theorem enterWire_eq_error {e : WireEntry}
    (taken : d.chip.wireByName.contains (d.intern e.name).1 = true) :
    d.enterWire e = .error (.fault (.rejected (.duplicateName .wire e.name))) := by
  have refused : d.addWire e.name e.type =
      .refuse (d.intern e.name).2 (.duplicateName .wire e.name) :=
    if_pos taken
  rw [enterWire, refused]
  rfl

theorem enterPip_eq_ok {e : PipEntry × Endpoints} {y : Option Symbol}
    (few : d.chip.pips.length < UInt32.size) (hx : d.intern e.1.name = (x, d₁))
    (free : d.chip.pipByName.contains x = false)
    (source : (Handle.ofIndex e.2.source : Wire).index < d.chip.wires.length)
    (target : (Handle.ofIndex e.2.target : Wire).index < d.chip.wires.length)
    (hy : d₁.internOptional e.1.type = (y, d₂))
    (hz : d₂.internAttributes e.1.attributes = (z, d₃)) :
    d.enterPip e = .ok { d₃ with
      chip := d.chip.appendPip ⟨x, y, .ofIndex e.2.source, .ofIndex e.2.target, z⟩ } := by
  have chip₁ : d₁.chip = d.chip := congrArg (·.2.chip) hx.symm
  have added : d.addPip e.1.name (.ofIndex e.2.source) (.ofIndex e.2.target) =
      .accept { d₁ with
          chip := d.chip.appendPip ⟨x, none, .ofIndex e.2.source, .ofIndex e.2.target, []⟩ }
        (.ofIndex d.chip.pips.length) := by
    simp only [addPip, hx, chip₁, free, Nat.not_le_of_lt source, Nat.not_le_of_lt target,
      Bool.false_eq_true, if_false]
  rw [enterPip, added, Outcome.accept, patched, patchPip, internOptional_with, hy]
  dsimp only
  rw [internAttributes_with, hz]
  dsimp only
  rw [Chip.patchPip_appendPip few rfl rfl rfl]
  rfl

theorem enterPip_eq_error {e : PipEntry × Endpoints}
    (taken : d.chip.pipByName.contains (d.intern e.1.name).1 = true) :
    d.enterPip e = .error (.fault (.rejected (.duplicateName .pip e.1.name))) := by
  have refused : d.addPip e.1.name (.ofIndex e.2.source) (.ofIndex e.2.target) =
      .refuse (d.intern e.1.name).2 (.duplicateName .pip e.1.name) :=
    if_pos taken
  rw [enterPip, refused]
  rfl

end

/-! ## One entry -/

/-- The chip of the draft has exactly the given entries. -/
structure Holds (d : Draft) (sites : List SiteEntry) (wires : List WireEntry)
    (pips : List (PipEntry × Endpoints)) : Prop where
  siteTable : Chip.Tabled Chip.siteSpelling d.names d.chip.sites d.chip.siteByName sites
  wireTable : Chip.Tabled Chip.wireSpelling d.names d.chip.wires d.chip.wireByName wires
  pipTable : Chip.Tabled Chip.pipSpelling d.names d.chip.pips d.chip.pipByName pips

variable {sites : List SiteEntry} {wires : List WireEntry} {pips : List (PipEntry × Endpoints)}

theorem holds_blank (names : Interner) (family name : String) :
    (⟨names, { Chip.blank name with family }⟩ : Draft).Holds [] [] [] :=
  ⟨.empty, .empty, .empty⟩

namespace Holds

/-- The interner may grow. -/
theorem later (h : d.Holds sites wires pips) {names : Interner} (le : d.names ≤ names) :
    (⟨names, d.chip⟩ : Draft).Holds sites wires pips :=
  ⟨h.siteTable.mono le, h.wireTable.mono le, h.pipTable.mono le⟩

variable (h : d.Holds sites wires pips) (room : d.names.Fits new)
include h room

theorem enterSite {e : SiteEntry} (given : e.strings ⊆ new)
    (fresh : e.name ∉ sites.map (·.name)) :
    ∃ d', d.enterSite e = .ok d' ∧ d'.Holds (sites ++ [e]) wires pips ∧ d'.names.Fits new := by
  have free := mt (contains_intern_iff room h.siteTable (given List.mem_cons_self)).mp fresh
  rcases hx : d.intern e.name with ⟨x, d₁⟩
  rcases hy : d₁.intern e.type with ⟨y, d₂⟩
  rcases hz : d₂.internAttributes e.attributes with ⟨z, d₃⟩
  -- A site always has a type, and otherwise its strings are interned like those of other entries.
  have hy' : d₁.internOptional (some e.type) = (some y, d₂) := by rw [internOptional, hy]
  obtain ⟨grown, name, type, attributes⟩ := spelled_entry room hx hy' hz given
  rw [hx, Bool.not_eq_true] at free
  have held := h.later grown.le
  refine ⟨_, enterSite_eq_ok (h.siteTable.length_lt free) hx free hy hz,
    ⟨?_, held.wireTable, held.pipTable⟩, grown.room⟩
  exact held.siteTable.push ⟨name, Option.some.inj type, rfl, rfl, attributes⟩ fresh

theorem enterSite_taken {e : SiteEntry} (given : e.strings ⊆ new)
    (taken : e.name ∈ sites.map (·.name)) :
    d.enterSite e = .error (.fault (.rejected (.duplicateName .site e.name))) :=
  enterSite_eq_error
    ((contains_intern_iff room h.siteTable (given List.mem_cons_self)).mpr taken)

theorem enterWire {e : WireEntry} (given : e.strings ⊆ new)
    (fresh : e.name ∉ wires.map (·.name)) :
    ∃ d', d.enterWire e = .ok d' ∧ d'.Holds sites (wires ++ [e]) pips ∧ d'.names.Fits new := by
  have free := mt (contains_intern_iff room h.wireTable (given List.mem_cons_self)).mp fresh
  rcases hx : d.intern e.name with ⟨x, d₁⟩
  rcases hy : d₁.internOptional e.type with ⟨y, d₂⟩
  rcases hz : d₂.internAttributes e.attributes with ⟨z, d₃⟩
  obtain ⟨grown, name, type, attributes⟩ := spelled_entry room hx hy hz given
  rw [hx, Bool.not_eq_true] at free
  have held := h.later grown.le
  refine ⟨_, enterWire_eq_ok (h.wireTable.length_lt free) hx free hy hz,
    ⟨held.siteTable, ?_, held.pipTable⟩, grown.room⟩
  exact held.wireTable.push ⟨name, type, attributes⟩ fresh

theorem enterWire_taken {e : WireEntry} (given : e.strings ⊆ new)
    (taken : e.name ∈ wires.map (·.name)) :
    d.enterWire e = .error (.fault (.rejected (.duplicateName .wire e.name))) :=
  enterWire_eq_error
    ((contains_intern_iff room h.wireTable (given List.mem_cons_self)).mpr taken)

/-- The positions of wires fit a handle and are found again. -/
theorem enterPip {e : PipEntry × Endpoints} (given : e.1.strings ⊆ new)
    (source : e.2.source < wires.length) (target : e.2.target < wires.length)
    (fresh : e.1.name ∉ pips.map (·.1.name)) :
    ∃ d', d.enterPip e = .ok d' ∧ d'.Holds sites wires (pips ++ [e]) ∧ d'.names.Fits new := by
  have free := mt (contains_intern_iff room h.pipTable (given List.mem_cons_self)).mp fresh
  rcases hx : d.intern e.1.name with ⟨x, d₁⟩
  rcases hy : d₁.internOptional e.1.type with ⟨y, d₂⟩
  rcases hz : d₂.internAttributes e.1.attributes with ⟨z, d₃⟩
  obtain ⟨grown, name, type, attributes⟩ := spelled_entry room hx hy hz given
  rw [hx, Bool.not_eq_true] at free
  have held := h.later grown.le
  -- There are no more wires than symbols, so the check of the positions passes.
  have inside {i : Nat} (hi : i < wires.length) :
      (Handle.ofIndex i : Wire).index < d.chip.wires.length := by
    rw [← h.wireTable.length_eq] at hi
    rwa [Handle.index_ofIndex (Nat.lt_of_lt_of_le hi h.wireTable.length_le)]
  refine ⟨_, enterPip_eq_ok (h.pipTable.length_lt free) hx free (inside source) (inside target) hy
    hz, ⟨held.siteTable, ?_, ?_⟩, grown.room⟩
  · exact held.wireTable.appendPip _
  · exact held.pipTable.push ⟨name, type, rfl, rfl, attributes⟩ fresh

theorem enterPip_taken {e : PipEntry × Endpoints} (given : e.1.strings ⊆ new)
    (taken : e.1.name ∈ pips.map (·.1.name)) :
    d.enterPip e = .error (.fault (.rejected (.duplicateName .pip e.1.name))) :=
  enterPip_eq_error
    ((contains_intern_iff room h.pipTable (given List.mem_cons_self)).mpr taken)

end Holds

/-! ## Many entries -/

/-- Enters entries by their names: as long as an invariant of the draft and the entries so far
holds, an entry with a new name is accepted, which keeps the invariant, and one whose name is taken
is rejected. -/
structure Enters {α : Type} (enter : Draft → α → Except BuildFailure Draft) (kind : Kind)
    (name : α → String) (admits : α → Prop) (Inv : List α → Draft → Prop) : Prop where
  accepts : ∀ {done d a}, Inv done d → admits a → name a ∉ done.map name →
    ∃ d', enter d a = .ok d' ∧ Inv (done ++ [a]) d'
  rejects : ∀ {done d a}, Inv done d → admits a → name a ∈ done.map name →
    enter d a = .error (.fault (.rejected (.duplicateName kind (name a))))

theorem enters_sites (wires : List WireEntry) (pips : List (PipEntry × Endpoints))
    (new : List String) :
    Enters enterSite .site (·.name) (·.strings ⊆ new)
      fun done d => d.Holds done wires pips ∧ d.names.Fits new where
  accepts inv := inv.1.enterSite inv.2
  rejects inv := inv.1.enterSite_taken inv.2

theorem enters_wires (sites : List SiteEntry) (pips : List (PipEntry × Endpoints))
    (new : List String) :
    Enters enterWire .wire (·.name) (·.strings ⊆ new)
      fun done d => d.Holds sites done pips ∧ d.names.Fits new where
  accepts inv := inv.1.enterWire inv.2
  rejects inv := inv.1.enterWire_taken inv.2

theorem enters_pips (sites : List SiteEntry) (wires : List WireEntry) (new : List String) :
    Enters enterPip .pip (·.1.name)
      (fun e => e.1.strings ⊆ new ∧ e.2.source < wires.length ∧ e.2.target < wires.length)
      fun done d => d.Holds sites wires done ∧ d.names.Fits new where
  accepts inv admits := inv.1.enterPip inv.2 admits.1 admits.2.1 admits.2.2
  rejects inv admits := inv.1.enterPip_taken inv.2 admits.1

namespace Enters

variable {α : Type} {enter : Draft → α → Except BuildFailure Draft} {kind : Kind}
  {name : α → String} {admits : α → Prop} {Inv : List α → Draft → Prop}

theorem foldlM_distinct (h : Enters enter kind name admits Inv) {l done : List α} {d : Draft}
    (inv : Inv done d) (all : ∀ a ∈ l, admits a) (distinct : ((done ++ l).map name).Nodup) :
    ∃ d', l.foldlM enter d = .ok d' ∧ Inv (done ++ l) d' := by
  induction l generalizing done d with
  | nil => exact ⟨d, rfl, (List.append_nil done).symm ▸ inv⟩
  | cons a l ih =>
    rw [List.forall_mem_cons] at all
    have fresh : name a ∉ done.map name := by
      rw [List.map_append, List.map_cons] at distinct
      exact fun mem => List.disjoint_of_nodup_append distinct mem List.mem_cons_self
    obtain ⟨d₁, first, inv₁⟩ := h.accepts inv all.1 fresh
    rw [List.append_cons] at distinct ⊢
    obtain ⟨d', rest, inv'⟩ := ih inv₁ all.2 distinct
    refine ⟨d', ?_, inv'⟩
    rw [List.foldlM_cons, first]
    exact rest

theorem foldlM_repeated (h : Enters enter kind name admits Inv) {l : List α} {d : Draft}
    {n : String} (inv : Inv [] d) (all : ∀ a ∈ l, admits a)
    (repeated : FirstRepeated (l.map name) n) :
    l.foldlM enter d = .error (.fault (.rejected (.duplicateName kind n))) := by
  obtain ⟨before, after, e, distinct, there⟩ := repeated
  obtain ⟨l, r, rfl, rfl, hr⟩ := List.map_eq_append_iff.mp e
  obtain ⟨a, r, rfl, rfl, _⟩ := List.map_eq_cons_iff.mp hr
  rw [List.forall_mem_append, List.forall_mem_cons] at all
  -- What comes before the repeated name is added, and the run ends there.
  obtain ⟨d₁, first, inv₁⟩ := h.foldlM_distinct inv all.1 distinct
  rw [List.foldlM_append, first]
  change (a :: r).foldlM enter d₁ = _
  rw [List.foldlM_cons, h.rejects inv₁ all.2.1 there]
  rfl

end Enters

end Draft

end Fabric
