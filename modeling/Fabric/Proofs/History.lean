import Fabric.Proofs.Additions
import Fabric.Proofs.LegalSites
/-!
The indices of a layout tell nothing about the interner. Symbols are numbered in the order in which
their strings came, so two interners with different pasts give the same chip different symbols, and
the buckets another order. But every answer about a type is about its string: the types are listed
in the order of their strings, and the sites of a type are those whose string it is.
-/

namespace Fabric

open Description

/-! ## Types of sites -/

/-- Exactly the types of some sites, each once, ascending by bytes. -/
structure ListsTypes (sites : List SiteEntry) (types : List String) : Prop where
  mem_iff : ∀ s, s ∈ types ↔ ∃ e ∈ sites, e.type = s
  ascending : types.Pairwise fun s s' => utf8 s < utf8 s'

theorem ListsTypes.nodup {sites : List SiteEntry} {types : List String}
    (h : ListsTypes sites types) : types.Nodup := by
  refine h.ascending.imp ?_
  rintro s _ lt rfl
  exact List.lt_irrefl _ lt

/-- The types, and not the order of the sites, determine the list. -/
theorem ListsTypes.unique {sites sites' : List SiteEntry} {types types' : List String}
    (h : ListsTypes sites types) (h' : ListsTypes sites' types')
    (same : ∀ s, (∃ e ∈ sites, e.type = s) ↔ ∃ e ∈ sites', e.type = s) : types = types' := by
  have perm : types.Perm types' := by
    refine (List.perm_ext_iff_of_nodup h.nodup h'.nodup).mpr fun s => ?_
    rw [h.mem_iff, h'.mem_iff, same]
  exact perm.eq_of_pairwise (fun _ _ _ _ lt gt => absurd gt (List.lt_asymm lt)) h.ascending
    h'.ascending

/-- The sites of a type. The n-th entry has the handle `n`. -/
def sitesOfType (sites : List SiteEntry) (type : String) : List Site :=
  ((List.range sites.length).filter fun i => sites[i]?.any (·.type = type)).map .ofIndex

/-! ## Answers of a chip -/

namespace Chip

variable {c : Chip} {t t' : Interner} {sites : List SiteEntry} {x : Symbol} {s : String}

theorem rows_mono (rows : List.Forall₂ (SiteRow.Spells t) c.sites sites) (le : t ≤ t') :
    List.Forall₂ (SiteRow.Spells t') c.sites sites :=
  rows.imp fun _ _ row => row.mono le

theorem siteHandles_eq (h : c.sites.length = sites.length) (few : sites.length < UInt32.size) :
    c.siteHandles = (List.range sites.length).map .ofIndex := by
  rw [siteHandles, h, Handle.firstN_eq few]

theorem bucketOfSite_eq (h : Site) : c.device.bucketOfSite h = c.device.siteType h := by
  rw [c.keepsPlacement.bucketOfSite]
  exact bind_pure _

theorem accepts_eq_ok_true_iff {h : Site} :
    c.device.accepts x h = .ok true ↔ c.device.siteType h = .ok x := by
  rw [c.keepsPlacement.accepts]
  cases c.device.siteType h with
  | error r => simp [bind, Except.bind]
  | ok own => simp [bind, Except.bind, eq_comm]

section
variable (rows : List.Forall₂ (SiteRow.Spells t) c.sites sites) (few : sites.length < UInt32.size)
include rows few

theorem exists_siteType {i : Nat} {e : SiteEntry} (he : sites[i]? = some e) :
    ∃ y, c.device.siteType (.ofIndex i) = .ok y ∧ t.text? y = some e.type := by
  obtain ⟨lt, rfl⟩ := List.getElem?_eq_some_iff.mp he
  have lt' : i < c.sites.length := rows.length_eq ▸ lt
  have row : c.site (.ofIndex i) = .ok c.sites[i] := by
    have index : (Handle.ofIndex i : Site).index = i := Handle.index_ofIndex (Nat.lt_trans lt few)
    rw [site, site?, index, List.getElem?_eq_getElem lt']
  refine ⟨c.sites[i].type, ?_, (rows.get lt' lt).type⟩
  change (c.site _).map _ = _
  rw [row]
  rfl

theorem siteType_eq_ok_iff (hx : t.text? x = some s) {i : Nat} {e : SiteEntry}
    (he : sites[i]? = some e) : c.device.siteType (.ofIndex i) = .ok x ↔ e.type = s := by
  obtain ⟨y, type, text⟩ := exists_siteType rows few he
  rw [type, Except.ok.injEq]
  constructor
  · rintro rfl
    exact Option.some.inj (text.symm.trans hx)
  · rintro rfl
    exact t.text?_inj text hx

/-- A question about the type of each site selects the sites of the type. -/
theorem filter_sites (hx : t.text? x = some s) {p : Site → Bool}
    (hp : ∀ h, p h = true ↔ c.device.siteType h = .ok x) :
    c.device.sites.filter p = sitesOfType sites s := by
  change c.siteHandles.filter p = _
  rw [siteHandles_eq rows.length_eq few, List.filter_map, sitesOfType]
  congr 1
  refine List.filter_congr fun i hi => ?_
  have he := List.getElem?_eq_getElem (List.mem_range.mp hi)
  rw [Bool.eq_iff_iff, he]
  simpa using (hp _).trans (siteType_eq_ok_iff rows few hx he)

theorem mem_sites_iff {h : Site} :
    h ∈ c.device.sites ↔ ∃ i e, sites[i]? = some e ∧ .ofIndex i = h := by
  change h ∈ c.siteHandles ↔ _
  rw [siteHandles_eq rows.length_eq few]
  simp [List.getElem?_eq_some_iff]

theorem exists_site_iff (hx : t.text? x = some s) :
    (∃ h ∈ c.device.sites, c.device.siteType h = .ok x) ↔ ∃ e ∈ sites, e.type = s := by
  simp only [mem_sites_iff rows few]
  constructor
  · rintro ⟨_, ⟨i, e, he, rfl⟩, type⟩
    exact ⟨e, List.mem_of_getElem? he, (siteType_eq_ok_iff rows few hx he).mp type⟩
  · rintro ⟨e, mem, type⟩
    obtain ⟨i, he⟩ := List.mem_iff_getElem?.mp mem
    exact ⟨_, ⟨i, e, he, rfl⟩, (siteType_eq_ok_iff rows few hx he).mpr type⟩

theorem exists_symbol (h : ∃ e ∈ sites, e.type = s) : ∃ y, t.text? y = some s := by
  obtain ⟨e, mem, rfl⟩ := h
  obtain ⟨i, he⟩ := List.mem_iff_getElem?.mp mem
  obtain ⟨y, _, text⟩ := exists_siteType rows few he
  exact ⟨y, text⟩

theorem sortable : c.device.Sortable t where
  typed := by
    intro h mem
    obtain ⟨i, e, he, rfl⟩ := (mem_sites_iff rows few).mp mem
    obtain ⟨y, type, text⟩ := exists_siteType rows few he
    exact ⟨y, e.type, y, type, text, rfl⟩
  placed := by
    intro h mem
    obtain ⟨i, e, he, rfl⟩ := (mem_sites_iff rows few).mp mem
    obtain ⟨y, type, _⟩ := exists_siteType rows few he
    exact ⟨y, (bucketOfSite_eq _).trans type⟩

theorem exists_layout (watched : Bool) : ∃ l, Layout.ofDevice c.device t watched = .ok l := by
  have sortable := sortable rows few
  obtain ⟨types, collect, _⟩ := sortable.exists_types
  obtain ⟨opened, opening⟩ :=
    Partition.exists_openAll (d := c.device) (fun y (_ : y ∈ types) => ⟨y, rfl⟩) Partition.empty
  obtain ⟨partition, pushing⟩ := Partition.exists_pushAll sortable.placed opened
  refine ⟨⟨c.device, types, partition, ∅, if watched then some [] else none⟩, ?_⟩
  simp [Layout.ofDevice, collect, Partition.ofDevice, opening, pushing, bind, Except.bind]

/-! ## Answers of a layout -/

variable {watched : Bool} {l : Layout Symbol}
  (made : Layout.ofDevice c.device t watched = .ok l)
include made

theorem types_spec :
    (∀ y, y ∈ l.types ↔ ∃ h ∈ c.device.sites, c.device.siteType h = .ok y) ∧
      l.types.Pairwise t.Before := by
  obtain ⟨symbols, _, collect, _, rfl⟩ := Layout.exists_of_ofDevice made
  obtain ⟨symbols', collect', spec⟩ := (sortable rows few).exists_types
  cases collect.symm.trans collect'
  exact spec

theorem exists_spelled : ∃ types : List String, l.types.map t.text? = types.map some := by
  obtain ⟨symbol, _⟩ := types_spec rows few made
  refine ⟨l.types.map fun y => (t.text? y).getD "", ?_⟩
  rw [List.map_map]
  refine List.map_congr_left fun y hy => ?_
  obtain ⟨h, hh, type⟩ := (symbol y).mp hy
  obtain ⟨_, s, _, type', text, _⟩ := (sortable rows few).typed h hh
  cases type.symm.trans type'
  rw [Function.comp_apply, text]
  rfl

theorem listsTypes_of_spelled {types : List String}
    (spelled : l.types.map t.text? = types.map some) : ListsTypes sites types where
  mem_iff s := by
    obtain ⟨symbol, _⟩ := types_spec rows few made
    have there : s ∈ types ↔ ∃ y ∈ l.types, t.text? y = some s := by
      rw [← List.mem_map, spelled]
      simp
    rw [there]
    constructor
    · rintro ⟨y, hy, text⟩
      exact (exists_site_iff rows few text).mp ((symbol y).mp hy)
    · intro mem
      obtain ⟨y, text⟩ := exists_symbol rows few mem
      exact ⟨y, (symbol y).mpr ((exists_site_iff rows few text).mpr mem), text⟩
  ascending := by
    -- The order of the symbols is that of their texts, wherever these come from.
    have ascending : (l.types.map t.text?).Pairwise fun a b =>
        ∃ x y, a = some x ∧ b = some y ∧ utf8 x < utf8 y :=
      List.pairwise_map.mpr (types_spec rows few made).2
    rw [spelled, List.pairwise_map] at ascending
    refine ascending.imp ?_
    rintro _ _ ⟨x, y, hx, hy, lt⟩
    cases hx
    cases hy
    exact lt

theorem mem_buckets_iff {y : Symbol} :
    y ∈ l.partition.buckets ↔ ∃ h ∈ c.device.sites, c.device.siteType h = .ok y := by
  obtain ⟨symbol, _⟩ := types_spec rows few made
  obtain ⟨symbols, _, _, build, rfl⟩ := Layout.exists_of_ofDevice made
  have nothing : y ∉ (Partition.empty : Partition Symbol).buckets := List.not_mem_nil
  have opens : (∃ z ∈ symbols, c.device.bucketOfType z = .ok y) ↔ y ∈ symbols := by
    change (∃ z ∈ symbols, Except.ok z = .ok y) ↔ _
    simp
  rw [(Partition.ofDevice_grows build).buckets y, or_iff_right nothing, opens, symbol]
  simp only [bucketOfSite_eq, or_self]

/-- There is a bucket for the types of sites, with the sites of the type. -/
theorem get?_eq {t' : Interner} (le : t ≤ t') (hx : t'.text? x = some s) :
    l.partition.get? x =
      if ∃ e ∈ sites, e.type = s then some (sitesOfType sites s) else none := by
  have rows' := rows_mono rows le
  have member := (mem_buckets_iff rows few made).trans (exists_site_iff rows' few hx)
  rw [Partition.mem_buckets_iff] at member
  obtain ⟨_, _, _, build, rfl⟩ := Layout.exists_of_ofDevice made
  have content := Partition.getD_ofDevice build x
  rw [filter_sites rows' few hx fun h => by rw [Device.puts_iff, bucketOfSite_eq]] at content
  by_cases there : ∃ e ∈ sites, e.type = s
  · obtain ⟨handles, found⟩ := Option.isSome_iff_exists.mp (member.mpr there)
    rw [if_pos there, found]
    rw [found] at content
    exact congrArg some content
  · rw [if_neg there]
    simpa using mt member.mp there

theorem legalSites_eq {t' : Interner} (le : t ≤ t') (hx : t'.text? x = some s) :
    l.legalSites x = .ok (sitesOfType sites s) := by
  have rows' := rows_mono rows le
  have fresh : l.ReachedOn c.device := .fresh made
  rw [(fresh.legalSites_of_keepsPlacement rfl c.keepsPlacement).1, Device.accepting,
    filter_sites rows' few hx fun h => by rw [Device.takes_iff, accepts_eq_ok_true_iff]]

theorem bucketName_iff :
    (∃ b ∈ l.partition.buckets, ∃ x, l.device.bucketName b = .ok x ∧ t.text? x = some s) ↔
      ∃ e ∈ sites, e.type = s := by
  have member {b : Symbol} := mem_buckets_iff rows few made (y := b)
  rw [(Layout.eq_of_ofDevice made).1]
  constructor
  · rintro ⟨b, mem, x, named, text⟩
    cases named
    exact (exists_site_iff rows few text).mp (member.mp mem)
  · intro there
    obtain ⟨y, text⟩ := exists_symbol rows few there
    exact ⟨y, member.mpr ((exists_site_iff rows few text).mpr there), y, rfl, text⟩

end

end Chip

/-! ## Two histories -/

/-- A way to a layout of some sites: an interner with any past and room for the strings of the
sites, a chip that was built with it, and a layout of the chip, for which the interner may have
grown again. -/
structure History (sites : List SiteEntry) where
  name : String
  past : Interner
  room : past.Fits (sites.flatMap (·.strings))
  draft : Draft
  built : sites.foldlM Draft.enterSite ⟨past, Chip.blank name⟩ = .ok draft
  names : Interner
  later : draft.names ≤ names
  watched : Bool
  layout : Layout Symbol
  made : Layout.ofDevice draft.chip.device names watched = .ok layout

/-- The string is the name of a bucket. -/
def History.NamesBucket {sites : List SiteEntry} (h : History sites) (s : String) : Prop :=
  ∃ b ∈ h.layout.partition.buckets, ∃ x, h.layout.device.bucketName b = .ok x ∧
    h.names.text? x = some s

variable {sites : List SiteEntry}

theorem exists_draft (distinct : (sites.map (·.name)).Nodup) {past : Interner}
    (room : past.Fits (sites.flatMap (·.strings))) (name : String) :
    ∃ draft, sites.foldlM Draft.enterSite ⟨past, Chip.blank name⟩ = .ok draft ∧
      List.Forall₂ (Chip.SiteRow.Spells draft.names) draft.chip.sites sites := by
  have blank := Draft.holds_blank past defaultFamily name
  have given : ∀ e ∈ sites, e.strings ⊆ sites.flatMap (·.strings) :=
    fun e he _ hs => List.mem_flatMap_of_mem he hs
  obtain ⟨draft, built, holds, _⟩ :=
    (Draft.enters_sites [] [] _).foldlM_distinct ⟨blank, room⟩ given distinct
  exact ⟨draft, built, holds.siteTable.spelled⟩

/-- Sites of nothing but names and types are built by additions alone. -/
theorem foldlM_enterSite_plain (plain : ∀ e ∈ sites, e.Plain) {d d' : Draft}
    (few : d.chip.sites.length + sites.length ≤ UInt32.size)
    (built : sites.foldlM Draft.enterSite d = .ok d') :
    d' = sites.foldl (fun d e => (d.addSite e.name e.type).state) d := by
  induction sites generalizing d with
  | nil =>
    cases built
    rfl
  | cons e sites ih =>
    rw [List.forall_mem_cons] at plain
    rw [List.length_cons] at few
    rw [List.foldlM_cons] at built
    obtain ⟨d₁, first, rest⟩ := bind_eq_ok_iff_exists.mp built
    obtain ⟨same, one_more⟩ := Draft.enterSite_plain plain.1 (by omega) first
    rw [List.foldl_cons, ← same]
    exact ih plain.2 (by omega) rest

theorem History.rows (distinct : (sites.map (·.name)).Nodup) (h : History sites) :
    List.Forall₂ (Chip.SiteRow.Spells h.names) h.draft.chip.sites sites := by
  obtain ⟨draft, built, rows⟩ := exists_draft distinct h.room h.name
  cases built.symm.trans h.built
  exact Chip.rows_mono rows h.later

/-- Whatever an interner held before, a list of sites with distinct names has a layout, and its
indices tell nothing about the interner. The types are spelled the same in every history, each once
and ascending by bytes, and lists of sites with the same types have the same. The buckets have the
same names, those of the types. A string leads to the same sites, which are those of this type in
their order, whatever its symbol is and whenever it was interned; a string that is no type has no
bucket. Sites of nothing but names and types are built by additions alone. -/
theorem indices_independent (distinct : (sites.map (·.name)).Nodup)
    (few : sites.length < UInt32.size - 1) :
    (∀ (name : String) (past : Interner), past.Fits (sites.flatMap (·.strings)) →
      ∃ draft, sites.foldlM Draft.enterSite ⟨past, Chip.blank name⟩ = .ok draft ∧
        ∀ names, draft.names ≤ names → ∀ watched,
          ∃ l, Layout.ofDevice draft.chip.device names watched = .ok l) ∧
    (∀ h : History sites, (∀ e ∈ sites, e.Plain) →
      h.draft = sites.foldl (fun d e => (d.addSite e.name e.type).state)
        ⟨h.past, Chip.blank h.name⟩) ∧
    ∀ h h' : History sites,
      (∃ types, ListsTypes sites types ∧
        (∀ sites' types', (∀ s, (∃ e ∈ sites', e.type = s) ↔ ∃ e ∈ sites, e.type = s) →
          ListsTypes sites' types' → types' = types) ∧
        h.layout.types.map h.names.text? = types.map some ∧
        h'.layout.types.map h'.names.text? = types.map some) ∧
      (∀ s, (h.NamesBucket s ↔ h'.NamesBucket s) ∧ (h.NamesBucket s ↔ ∃ e ∈ sites, e.type = s)) ∧
      ∀ t t' : Interner, h.names ≤ t → h'.names ≤ t' →
        ∀ s x x', t.text? x = some s → t'.text? x' = some s →
          h.layout.partition.get? x = h'.layout.partition.get? x' ∧
          h.layout.legalSites x = h'.layout.legalSites x' ∧
          h.layout.legalSites x = .ok (sitesOfType sites s) ∧
          h.layout.partition.get? x =
            if ∃ e ∈ sites, e.type = s then some (sitesOfType sites s) else none := by
  have few : sites.length < UInt32.size := Nat.lt_of_lt_of_le few (Nat.sub_le _ _)
  refine ⟨fun name past room => ?_, fun h plain => ?_, fun h h' => ⟨?_, fun s => ?_, ?_⟩⟩
  · obtain ⟨draft, built, rows⟩ := exists_draft distinct room name
    refine ⟨draft, built, fun names later watched => ?_⟩
    exact Chip.exists_layout (Chip.rows_mono rows later) few watched
  · exact foldlM_enterSite_plain plain (by simpa [Chip.blank] using Nat.le_of_lt few) h.built
  · obtain ⟨types, spelled⟩ := Chip.exists_spelled (h.rows distinct) few h.made
    obtain ⟨types', spelled'⟩ := Chip.exists_spelled (h'.rows distinct) few h'.made
    have lists := Chip.listsTypes_of_spelled (h.rows distinct) few h.made spelled
    have lists' := Chip.listsTypes_of_spelled (h'.rows distinct) few h'.made spelled'
    cases lists.unique lists' fun _ => .rfl
    exact ⟨types, lists, fun _ _ same lists' => lists'.unique lists same, spelled, spelled'⟩
  · have named : h.NamesBucket s ↔ _ := Chip.bucketName_iff (h.rows distinct) few h.made
    have named' : h'.NamesBucket s ↔ _ := Chip.bucketName_iff (h'.rows distinct) few h'.made
    exact ⟨named.trans named'.symm, named⟩
  · intro t t' le le' s x x' text text'
    have bucket := Chip.get?_eq (h.rows distinct) few h.made le text
    have bucket' := Chip.get?_eq (h'.rows distinct) few h'.made le' text'
    have legal := Chip.legalSites_eq (h.rows distinct) few h.made le text
    have legal' := Chip.legalSites_eq (h'.rows distinct) few h'.made le' text'
    exact ⟨bucket.trans bucket'.symm, legal.trans legal'.symm, legal, bucket⟩

/-! ## Two histories of a small list -/

/-- Two LUTs with an FF in between. -/
def mixed : List SiteEntry :=
  [⟨"S0", "LUT", false, false, ∅⟩, ⟨"S1", "FF", false, false, ∅⟩, ⟨"S2", "LUT", false, false, ∅⟩]

def mixedDraft (past : Interner) : Draft :=
  mixed.foldl (fun d e => (d.addSite e.name e.type).state) ⟨past, Chip.blank "mixed"⟩

/-- The types come after the first site's name. -/
def mixedFresh : History mixed where
  name := "mixed"
  past := ∅
  room := by decide
  draft := mixedDraft ∅
  built := rfl
  names := (mixedDraft ∅).names
  later := le_refl _
  watched := false
  layout := ⟨(mixedDraft ∅).chip.device, [⟨3⟩, ⟨1⟩],
    ⟨((∅ : SortedMap Symbol (List Site)).insert ⟨1⟩ [⟨0⟩, ⟨2⟩]).insert ⟨3⟩ [⟨1⟩]⟩, ∅, none⟩
  made := rfl

/-- The interner knows the types from before, the other way round. -/
def mixedPast : Interner := ⟨["FF", "LUT"], by decide⟩

def mixedLate : History mixed where
  name := "mixed"
  past := mixedPast
  room := by decide
  draft := mixedDraft mixedPast
  built := rfl
  names := (mixedDraft mixedPast).names
  later := le_refl _
  watched := false
  layout := ⟨(mixedDraft mixedPast).chip.device, [⟨0⟩, ⟨1⟩],
    ⟨((∅ : SortedMap Symbol (List Site)).insert ⟨0⟩ [⟨1⟩]).insert ⟨1⟩ [⟨0⟩, ⟨2⟩]⟩, ∅, none⟩
  made := rfl

/-- The buckets stand in another order, but the FF is found under either symbol of its type. -/
theorem indices_mixed :
    (mixed.map (·.name)).Nodup ∧ mixed.length < UInt32.size - 1 ∧
    mixedFresh.layout.partition.buckets = [⟨1⟩, ⟨3⟩] ∧
    mixedLate.layout.partition.buckets = [⟨0⟩, ⟨1⟩] ∧
    mixedFresh.layout.types.map mixedFresh.names.text? =
      mixedLate.layout.types.map mixedLate.names.text? ∧
    mixedFresh.layout.partition.get? ⟨3⟩ = mixedLate.layout.partition.get? ⟨0⟩ ∧
    mixedFresh.layout.legalSites ⟨3⟩ = mixedLate.layout.legalSites ⟨0⟩ ∧
    mixedLate.layout.legalSites ⟨0⟩ = .ok [⟨1⟩] := by
  have distinct : (mixed.map (·.name)).Nodup := by decide
  have few : mixed.length < UInt32.size - 1 := by decide
  obtain ⟨⟨types, _, _, spelled, spelled'⟩, _, answers⟩ :=
    (indices_independent distinct few).2.2 mixedFresh mixedLate
  obtain ⟨bucket, legal, sites, _⟩ :=
    answers _ _ (le_refl _) (le_refl _) "FF" ⟨3⟩ ⟨0⟩ rfl rfl
  exact ⟨distinct, few, rfl, rfl, spelled.trans spelled'.symm, bucket, legal,
    legal.symm.trans sites⟩

end Fabric
