import Fabric.Proofs.Building
import Fabric.Proofs.ByteOrder
import Fabric.Proofs.Coherence
import Fabric.Proofs.InternerRun
/-!
Portraits of described chips. All that can be asked of a chip and of its names is told by the
description that it was built from (`portrait_ofDescription`): the n-th entry of a kind has the
handle `n`, its strings are spelled as they are there, and the lists at a wire are the pips that
name it. The interner has no part in this, whatever it held before.
-/

namespace Fabric

open Description

/-- What can be asked of a device whose entries have names, with every symbol spelled out. -/
@[ext]
structure Portrait where
  family : String
  name : String
  sites : List Site
  wires : List Wire
  pips : List Pip
  siteName : Site → Except Refusal String
  siteType : Site → Except Refusal String
  siteHidden : Site → Except Refusal Bool
  siteGlobalBuffer : Site → Except Refusal Bool
  siteAttributes : Site → Except Refusal (List (String × String))
  wireName : Wire → Except Refusal String
  wireType : Wire → Except Refusal (Option String)
  wireAttributes : Wire → Except Refusal (List (String × String))
  pipName : Pip → Except Refusal String
  pipType : Pip → Except Refusal (Option String)
  pipAttributes : Pip → Except Refusal (List (String × String))
  source : Pip → Except Refusal Wire
  target : Pip → Except Refusal Wire
  downhill : Wire → Except Refusal (List Pip)
  uphill : Wire → Except Refusal (List Pip)
  siteNamed : String → Option Site
  wireNamed : String → Option Wire
  pipNamed : String → Option Pip

/-! ## Of a chip -/

namespace Interner

variable {t : Interner}

/-- The string of a symbol. A symbol that was not handed out is refused. -/
def spell (t : Interner) (x : Symbol) : Except Refusal String :=
  match t.text? x with
  | some s => .ok s
  | none => .error .unknownSymbol

def spellOptional (t : Interner) : Option Symbol → Except Refusal (Option String)
  | none => .ok none
  | some x => (t.spell x).map some

def spellAttributes (t : Interner) : List Attribute → Except Refusal (List (String × String))
  | [] => .ok []
  | a :: r => do
    let key ← t.spell a.1
    let rest ← t.spellAttributes r
    .ok ((key, a.2) :: rest)

theorem spell_eq {x : Symbol} {s : String} (h : t.text? x = some s) : t.spell x = .ok s := by
  rw [spell, h]

theorem spellOptional_eq {x : Option Symbol} {s : Option String}
    (h : x.map t.text? = s.map some) : t.spellOptional x = .ok s := by
  cases x with
  | none =>
    cases s with
    | none => rfl
    | some s => cases h
  | some x =>
    cases s with
    | none => cases h
    | some s =>
      rw [spellOptional, spell_eq (Option.some.inj h)]
      rfl

theorem spellAttributes_eq {given : List Attribute} {attributes : Attributes}
    (h : Chip.SpellsAttributes t given attributes) :
    t.spellAttributes given = .ok attributes.entries := by
  unfold Chip.SpellsAttributes at h
  generalize attributes.entries = entries at h ⊢
  induction h with
  | nil => rfl
  | cons head _ ih =>
    rw [spellAttributes, spell_eq head.1, ih, head.2]
    rfl

end Interner

/-- The answers of a chip, with its symbols spelled by an interner. -/
def Chip.portrait (c : Chip) (t : Interner) : Portrait where
  family := c.device.family
  name := c.device.name
  sites := c.device.sites
  wires := c.wireHandles
  pips := c.pipHandles
  siteName s := c.siteName s >>= t.spell
  siteType s := c.device.siteType s >>= t.spell
  siteHidden := c.device.siteHidden
  siteGlobalBuffer := c.device.siteGlobalBuffer
  siteAttributes s := c.device.siteAttributes s >>= t.spellAttributes
  wireName w := c.wireName w >>= t.spell
  wireType w := c.device.wireType w >>= t.spellOptional
  wireAttributes w := c.device.wireAttributes w >>= t.spellAttributes
  pipName p := c.pipName p >>= t.spell
  pipType p := c.device.pipType p >>= t.spellOptional
  pipAttributes p := c.device.pipAttributes p >>= t.spellAttributes
  source := c.source
  target := c.device.target
  downhill := c.downhill
  uphill := c.uphill
  siteNamed s := (t.find? s).bind c.siteByName.get?
  wireNamed s := (t.find? s).bind c.wireByName.get?
  pipNamed s := (t.find? s).bind c.pipByName.get?

/-! ## Of a description -/

namespace Description

variable (d : Description)

def site (s : Site) : Except Refusal SiteEntry := entryAt d.sites s.index (.unknownSite d.name s)
def wire (w : Wire) : Except Refusal WireEntry := entryAt d.wires w.index (.unknownWire d.name w)
def pip (p : Pip) : Except Refusal PipEntry := entryAt d.pips p.index (.unknownPip d.name p)

/-- The wire of a name. -/
def wireCalled (name : String) : Wire := .ofIndex (d.wireNames.idxOf name)

/-- The pips one end of which is the wire of a name, in order. -/
def pipsAt (ends : PipEntry → String) (name : String) : List Pip :=
  (positions (fun p => decide (ends p = name)) d.pips).map .ofIndex

/-- What a description says, without any symbols. -/
def portrait : Portrait where
  family := d.family
  name := d.name
  sites := (List.range d.sites.length).map .ofIndex
  wires := (List.range d.wires.length).map .ofIndex
  pips := (List.range d.pips.length).map .ofIndex
  siteName s := (d.site s).map (·.name)
  siteType s := (d.site s).map (·.type)
  siteHidden s := (d.site s).map (·.hidden)
  siteGlobalBuffer s := (d.site s).map (·.globalBuffer)
  siteAttributes s := (d.site s).map (·.attributes.entries)
  wireName w := (d.wire w).map (·.name)
  wireType w := (d.wire w).map (·.type)
  wireAttributes w := (d.wire w).map (·.attributes.entries)
  pipName p := (d.pip p).map (·.name)
  pipType p := (d.pip p).map (·.type)
  pipAttributes p := (d.pip p).map (·.attributes.entries)
  source p := (d.pip p).map fun e => d.wireCalled e.source
  target p := (d.pip p).map fun e => d.wireCalled e.target
  downhill w := (d.wire w).map fun e => d.pipsAt (·.source) e.name
  uphill w := (d.wire w).map fun e => d.pipsAt (·.target) e.name
  siteNamed s := (d.siteNames.idxOf? s).map .ofIndex
  wireNamed s := (d.wireNames.idxOf? s).map .ofIndex
  pipNamed s := (d.pipNames.idxOf? s).map .ofIndex

end Description

/-! ## Entries for rows -/

section
variable {ρ ε α γ : Type} {rows : List ρ} {entries : List ε} {unknown : Refusal}

/-- A question about a row is answered by its entry. -/
theorem entryAt_map_bind (same_length : rows.length = entries.length) {i : Nat} {f : ρ → α}
    {g : α → Except Refusal γ} {k : ε → γ}
    (same : ∀ row e, rows[i]? = some row → entries[i]? = some e → g (f row) = .ok (k e)) :
    (entryAt rows i unknown).map f >>= g = (entryAt entries i unknown).map k := by
  unfold entryAt
  rcases Nat.lt_or_ge i rows.length with lt | ge
  · have row := List.getElem?_eq_getElem lt
    have entry := List.getElem?_eq_getElem (same_length ▸ lt)
    rw [row, entry]
    exact same _ _ row entry
  · rw [List.getElem?_eq_none ge, List.getElem?_eq_none (same_length ▸ ge)]
    rfl

theorem forall₂_of_getElem? {R : ρ → ε → Prop} (h : List.Forall₂ R rows entries) {i : Nat}
    {row : ρ} {e : ε} (hr : rows[i]? = some row) (he : entries[i]? = some e) : R row e := by
  obtain ⟨lt, rfl⟩ := List.getElem?_eq_some_iff.mp hr
  obtain ⟨lt', rfl⟩ := List.getElem?_eq_some_iff.mp he
  exact h.get lt lt'

theorem forall₂_of_zip {η : Type} {R : ρ → ε × η → Prop} {S : ε → η → Prop} {others : List η}
    (h : List.Forall₂ R rows (entries.zip others)) (h' : List.Forall₂ S entries others) :
    List.Forall₂ (fun row e => ∃ o, R row (e, o) ∧ S e o) rows entries := by
  induction h' generalizing rows with
  | nil =>
    cases h
    exact .nil
  | cons head _ ih =>
    cases h with
    | cons first rest => exact .cons ⟨_, first, head⟩ (ih rest)

end

/-- Of distinct strings each has one position. -/
theorem idxOf?_eq_some_iff_getElem? {names : List String} (distinct : names.Nodup) {s : String}
    {i : Nat} : names.idxOf? s = some i ↔ names[i]? = some s := by
  rw [List.idxOf?_eq_some_iff, List.getElem?_eq_some_iff]
  refine exists_congr fun lt => and_iff_left_of_imp ?_
  rintro rfl j before same
  exact Nat.ne_of_lt before ((List.Nodup.getElem_inj_iff distinct).mp same)

namespace Chip

variable {c : Chip} {t t' : Interner} {d : Description} {es : List Endpoints}

/-- What is interned finds the entry that has it for a name, and only this one. -/
theorem Tabled.find?_bind {ρ ε : Type} {k : Kind} {σ : Spelling ρ ε} {rows : List ρ}
    {index : SortedMap Symbol (Handle k)} {entries : List ε} (h : Tabled σ t rows index entries)
    (room : t.size ≤ UInt32.size) (distinct : (entries.map σ.entryName).Nodup) (s : String) :
    (t.find? s).bind index.get? = ((entries.map σ.entryName).idxOf? s).map .ofIndex := by
  have spelled (i : Nat) : (entries.map σ.entryName)[i]? = some s ↔
      ∃ x, (rows.map σ.rowName)[i]? = some x ∧ t.text? x = some s := by
    have texts : ((rows.map σ.rowName).map t.text?)[i]? =
        ((entries.map σ.entryName).map some)[i]? := by rw [h.map_text?]
    rw [List.getElem?_map, List.getElem?_map (f := some)] at texts
    rw [← Option.map_eq_some_iff, texts]
    simp
  ext g
  simp only [Option.bind_eq_some_iff, Option.map_eq_some_iff, t.find?_eq_some_iff room,
    idxOf?_eq_some_iff_getElem? distinct, spelled, h.catalogued.indexed _ g]
  constructor
  · rintro ⟨x, text, i, at_i, rfl⟩
    exact ⟨i, ⟨x, at_i, text⟩, rfl⟩
  · rintro ⟨i, ⟨x, at_i, text⟩, rfl⟩
    exact ⟨x, text, i, at_i, rfl⟩

/-! ## Images -/

/-- The chip was built from the description, with these positions of the wires of its pips. -/
structure Depicts (c : Chip) (t : Interner) (d : Description) (es : List Endpoints) : Prop where
  family : c.family = d.family
  name : c.name = d.name
  consistent : d.Consistent
  resolved : List.Forall₂ d.Resolves d.pips es
  siteTable : Tabled siteSpelling t c.sites c.siteByName d.sites
  wireTable : Tabled wireSpelling t c.wires c.wireByName d.wires
  pipTable : Tabled pipSpelling t c.pips c.pipByName (d.pips.zip es)
  lists : c.ListsPips

namespace Depicts

theorem mono (h : c.Depicts t d es) (le : t ≤ t') : c.Depicts t' d es :=
  { h with
    siteTable := h.siteTable.mono le
    wireTable := h.wireTable.mono le
    pipTable := h.pipTable.mono le }

variable (h : c.Depicts t d es)
include h

/-- A row of a pip spells its entry and has the wires that it names. -/
theorem pipRows :
    List.Forall₂ (fun row p => ∃ e, row.Spells t (p, e) ∧ d.Resolves p e) c.pips d.pips :=
  forall₂_of_zip h.pipTable.spelled h.resolved

/-! ### Questions about one entry -/

section
variable {α γ : Type} {g : α → Except Refusal γ}

theorem site_map_bind {f : SiteRow → α} {k : SiteEntry → γ}
    (same : ∀ row e, row.Spells t e → g (f row) = .ok (k e)) (s : Site) :
    (c.site s).map f >>= g = (d.site s).map k := by
  rw [site_eq_entryAt, h.name]
  exact entryAt_map_bind h.siteTable.length_eq fun row e hr he =>
    same row e (forall₂_of_getElem? h.siteTable.spelled hr he)

theorem wire_map_bind {f : WireRow → α} {k : WireEntry → γ}
    (same : ∀ row e, row.Spells t e → g (f row) = .ok (k e)) (w : Wire) :
    (c.wire w).map f >>= g = (d.wire w).map k := by
  rw [wire_eq_entryAt, h.name]
  exact entryAt_map_bind h.wireTable.length_eq fun row e hr he =>
    same row e (forall₂_of_getElem? h.wireTable.spelled hr he)

theorem pip_map_bind {f : PipRow → α} {k : PipEntry → γ}
    (same : ∀ row p e, row.Spells t (p, e) → d.Resolves p e → g (f row) = .ok (k p)) (p : Pip) :
    (c.pip p).map f >>= g = (d.pip p).map k := by
  rw [pip_eq_entryAt, h.name]
  refine entryAt_map_bind h.pipRows.length_eq fun row e hr he => ?_
  obtain ⟨ends, spells, resolves⟩ := forall₂_of_getElem? h.pipRows hr he
  exact same row e ends spells resolves

theorem site_map {f : SiteRow → α} {k : SiteEntry → α}
    (same : ∀ row e, row.Spells t e → f row = k e) (s : Site) :
    (c.site s).map f = (d.site s).map k :=
  (bind_pure _).symm.trans (h.site_map_bind (fun row e spells => congrArg _ (same row e spells)) s)

theorem pip_map {f : PipRow → α} {k : PipEntry → α}
    (same : ∀ row p e, row.Spells t (p, e) → d.Resolves p e → f row = k p) (p : Pip) :
    (c.pip p).map f = (d.pip p).map k :=
  (bind_pure _).symm.trans
    (h.pip_map_bind (fun row e p spells resolves => congrArg _ (same row e p spells resolves)) p)

end

/-! ### Wires of pips -/

/-- A position of a wire is the one of its name. -/
theorem ofIndex_eq_wireCalled {i : Nat} {name : String} (at_i : d.wireNames[i]? = some name) :
    (.ofIndex i : Wire) = d.wireCalled name := by
  obtain ⟨lt, rfl⟩ := List.getElem?_eq_some_iff.mp at_i
  rw [wireCalled, h.consistent.wires.idxOf_getElem]

/-- A pip has an end at a wire if it names it. -/
theorem pipsAt_eq (few : d.wires.length < UInt32.size) {ends : PipRow → Wire}
    {named : PipEntry → String}
    (resolve : ∀ row p e, row.Spells t (p, e) → d.Resolves p e →
      ∃ j, ends row = .ofIndex j ∧ d.wireNames[j]? = some (named p))
    {i : Nat} {e : WireEntry} (he : d.wires[i]? = some e) :
    c.pipsAt ends i = d.pipsAt named e.name := by
  have name : d.wireNames[i]? = some e.name := by rw [wireNames, List.getElem?_map, he]; rfl
  refine congrArg (List.map _) (positions_congr h.pipRows.length_eq fun n row p hr hp => ?_)
  obtain ⟨positions, spells, resolves⟩ := forall₂_of_getElem? h.pipRows hr hp
  obtain ⟨j, at_end, wire⟩ := resolve row p positions spells resolves
  have lt : j < d.wireNames.length := (List.getElem?_eq_some_iff.mp wire).1
  have lt' : j < UInt32.size := Nat.lt_trans (by simpa [wireNames] using lt) few
  rw [at_end, Handle.index_ofIndex lt']
  refine decide_eq_decide.mpr ?_
  rw [← List.getElem?_inj lt h.consistent.wires, wire, name, Option.some_inj]

theorem downhill (few : d.wires.length < UInt32.size) (w : Wire) :
    c.downhill w = (d.wire w).map fun e => d.pipsAt (·.source) e.name := by
  rw [Chip.downhill, wire_eq_entryAt, h.name, ← bind_pure (Except.map _ _)]
  refine entryAt_map_bind h.wireTable.length_eq fun row e hr he => ?_
  rw [h.lists.downhill hr, h.pipsAt_eq few (fun row p e spells resolves =>
    ⟨e.source, spells.source, resolves.source⟩) he]
  rfl

theorem uphill (few : d.wires.length < UInt32.size) (w : Wire) :
    c.uphill w = (d.wire w).map fun e => d.pipsAt (·.target) e.name := by
  rw [Chip.uphill, wire_eq_entryAt, h.name, ← bind_pure (Except.map _ _)]
  refine entryAt_map_bind h.wireTable.length_eq fun row e hr he => ?_
  rw [h.lists.uphill hr, h.pipsAt_eq few (fun row p e spells resolves =>
    ⟨e.target, spells.target, resolves.target⟩) he]
  rfl

/-! ### All questions -/

theorem portrait_eq (few_sites : d.sites.length < UInt32.size)
    (few_wires : d.wires.length < UInt32.size) (few_pips : d.pips.length < UInt32.size)
    (room : t.size ≤ UInt32.size) : c.portrait t = d.portrait := by
  have pipNames : (d.pips.zip es).map pipSpelling.entryName = d.pipNames :=
    Draft.map_name_zip h.resolved
  apply Portrait.ext
  case family => exact h.family
  case name => exact h.name
  case sites =>
    change Handle.firstN .site c.sites.length = _
    rw [h.siteTable.length_eq]
    exact Handle.firstN_eq few_sites
  case wires =>
    change Handle.firstN .wire c.wires.length = _
    rw [h.wireTable.length_eq]
    exact Handle.firstN_eq few_wires
  case pips =>
    change Handle.firstN .pip c.pips.length = _
    rw [h.pipRows.length_eq]
    exact Handle.firstN_eq few_pips
  case siteName =>
    exact funext (h.site_map_bind fun row e spells => Interner.spell_eq spells.name)
  case siteType =>
    exact funext (h.site_map_bind fun row e spells => Interner.spell_eq spells.type)
  case siteHidden => exact funext (h.site_map fun row e spells => spells.hidden)
  case siteGlobalBuffer => exact funext (h.site_map fun row e spells => spells.globalBuffer)
  case siteAttributes =>
    exact funext (h.site_map_bind fun row e spells =>
      Interner.spellAttributes_eq spells.attributes)
  case wireName =>
    exact funext (h.wire_map_bind fun row e spells => Interner.spell_eq spells.name)
  case wireType =>
    exact funext (h.wire_map_bind fun row e spells => Interner.spellOptional_eq spells.type)
  case wireAttributes =>
    exact funext (h.wire_map_bind fun row e spells =>
      Interner.spellAttributes_eq spells.attributes)
  case pipName =>
    exact funext (h.pip_map_bind fun row p e spells _ => Interner.spell_eq spells.name)
  case pipType =>
    exact funext (h.pip_map_bind fun row p e spells _ => Interner.spellOptional_eq spells.type)
  case pipAttributes =>
    exact funext (h.pip_map_bind fun row p e spells _ =>
      Interner.spellAttributes_eq spells.attributes)
  case source =>
    exact funext (h.pip_map fun row p e spells resolves =>
      spells.source.trans (h.ofIndex_eq_wireCalled resolves.source))
  case target =>
    exact funext (h.pip_map fun row p e spells resolves =>
      spells.target.trans (h.ofIndex_eq_wireCalled resolves.target))
  case downhill => exact funext (h.downhill few_wires)
  case uphill => exact funext (h.uphill few_wires)
  case siteNamed => exact funext (h.siteTable.find?_bind room h.consistent.sites)
  case wireNamed => exact funext (h.wireTable.find?_bind room h.consistent.wires)
  case pipNamed =>
    have named := h.pipTable.find?_bind room (pipNames.symm ▸ h.consistent.pips)
    rw [pipNames] at named
    exact funext named

end Depicts

end Chip

namespace Draft

variable {d : Description} {names : Interner} {draft : Draft}

theorem exists_depicts (room : names.Fits d.strings) (built : ofDescription names d = .ok draft) :
    ∃ es, draft.chip.Depicts draft.names d es := by
  have consistent := consistent_of_ofDescription room built
  obtain ⟨es, draft', resolved, built', holds⟩ := ofDescription_holds room consistent
  cases built.symm.trans built'
  have grows := Chip.Grows.ofDescription built
  exact ⟨es, grows.family_eq, grows.name_eq, consistent, resolved, holds.siteTable,
    holds.wireTable, holds.pipTable, grows.listsPips⟩

end Draft

/-! ## Attributes -/

/-- Attributes in ascending order of the bytes of their keys. -/
def AscendingKeys (l : List (String × String)) : Prop := l.Pairwise fun a b => utf8 a.1 < utf8 b.1

theorem ascendingKeys_of_map {ε : Type} {answer : Except Refusal ε} {attributes : ε → Attributes}
    {l : List (String × String)} (told : answer.map (fun e => (attributes e).entries) = .ok l) :
    AscendingKeys l := by
  cases answer with
  | error r => cases told
  | ok e =>
    cases told
    exact (attributes e).sorted.imp compare_eq_lt_iff_utf8.mp

/-- All attributes are told in this order. -/
structure Portrait.Ordered (p : Portrait) : Prop where
  sites : ∀ s l, p.siteAttributes s = .ok l → AscendingKeys l
  wires : ∀ w l, p.wireAttributes w = .ok l → AscendingKeys l
  pips : ∀ q l, p.pipAttributes q = .ok l → AscendingKeys l

theorem Description.ordered_portrait (d : Description) : d.portrait.Ordered where
  sites _ _ := ascendingKeys_of_map
  wires _ _ := ascendingKeys_of_map
  pips _ _ := ascendingKeys_of_map

/-- A chip that was built from a description gives the portrait that the description gives without
any symbols, whatever the interner held before and has been given since. In such a description a
name stands for one entry of its kind, and both ends of a pip for wires. -/
theorem portrait_ofDescription {d : Description} {names : Interner} {draft : Draft}
    (few_sites : d.sites.length < UInt32.size - 1) (few_wires : d.wires.length < UInt32.size - 1)
    (few_pips : d.pips.length < UInt32.size - 1) (room : names.Fits d.strings)
    (built : Draft.ofDescription names d = .ok draft) {later : Interner}
    (le : draft.names ≤ later) (room' : later.size ≤ UInt32.size) :
    d.Consistent ∧ draft.chip.portrait later = d.portrait ∧
      (draft.chip.portrait later).Ordered := by
  have few {n : Nat} (h : n < UInt32.size - 1) : n < UInt32.size := by omega
  obtain ⟨es, depicts⟩ := Draft.exists_depicts room built
  have same : draft.chip.portrait later = d.portrait :=
    (depicts.mono le).portrait_eq (few few_sites) (few few_wires) (few few_pips) room'
  exact ⟨depicts.consistent, same, same ▸ d.ordered_portrait⟩

/-! ## A small chip -/

/-- Two wires with a pip from one to the other and a pip from this one to itself. -/
def hooked : Description where
  family := "generic"
  name := "hooked"
  sites := [⟨"S", "LUT", true, false, (SortedMap.empty.insert "y" "1").insert "x" "0"⟩]
  wires := [⟨"W0", none, ∅⟩, ⟨"W1", some "LUT", ∅⟩]
  pips := [⟨"P0", "W0", "W1", none, ∅⟩, ⟨"P1", "W1", "W1", none, ∅⟩]

/-- The interner knows some of the names, in another order. -/
def hookedPast : Interner := ⟨["y", "W1", "LUT", "P0"], by decide⟩

def hookedDraft : Draft :=
  match Draft.ofDescription hookedPast hooked with
  | .ok draft => draft
  | .error _ => ⟨hookedPast, Chip.blank "hooked"⟩

theorem portrait_hooked :
    Draft.ofDescription hookedPast hooked = .ok hookedDraft ∧
    hookedDraft.chip.device.siteAttributes ⟨0⟩ = .ok [(⟨5⟩, "0"), (⟨0⟩, "1")] ∧
    (hookedDraft.chip.portrait hookedDraft.names).siteAttributes ⟨0⟩ =
      .ok [("x", "0"), ("y", "1")] ∧
    (hookedDraft.chip.portrait hookedDraft.names).target ⟨1⟩ = .ok ⟨1⟩ ∧
    (hookedDraft.chip.portrait hookedDraft.names).uphill ⟨1⟩ = .ok [⟨0⟩, ⟨1⟩] ∧
    (hookedDraft.chip.portrait hookedDraft.names).wireNamed "W1" = some ⟨1⟩ ∧
    (hookedDraft.chip.portrait hookedDraft.names).siteNamed "W1" = none := by
  have built : Draft.ofDescription hookedPast hooked = .ok hookedDraft := rfl
  have same := (portrait_ofDescription (d := hooked) (by decide) (by decide) (by decide) (by decide)
    built (le_refl _) (by decide)).2.1
  rw [same]
  exact ⟨built, rfl, rfl, rfl, rfl, rfl, rfl⟩

end Fabric
