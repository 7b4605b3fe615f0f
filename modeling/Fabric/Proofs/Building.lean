import Fabric.Proofs.Additions
import Fabric.Proofs.Validity
/-!
Which descriptions describe a chip. A description is consistent when its names are distinct within
each kind and its pips connect its own wires; then a chip is built, which has exactly the described
entries. Any other description has a first fault, which is answered: an end that no wire has for its
name comes before all names that repeat.
-/

namespace Fabric

namespace Description

variable {d : Description}

structure Consistent (d : Description) : Prop where
  sites : d.siteNames.Nodup
  wires : d.wireNames.Nodup
  pips : d.pipNames.Nodup
  ends : ∀ p ∈ d.pips, d.Declares p

/-! ## Faults -/

/-- What is wrong with a description that is not consistent. Ends come first, whatever names repeat;
then come the names of sites, of wires and of pips. -/
inductive BuildFault (d : Description) : Fault → Prop
  | unknownWire {before p after wire} (pips : d.pips = before ++ p :: after)
      (declared : ∀ q ∈ before, d.Declares q) (undeclared : d.UndeclaredEnd p wire) :
      BuildFault d (.unknownWire p.name wire)
  | site {n} (ends : ∀ p ∈ d.pips, d.Declares p) (repeated : FirstRepeated d.siteNames n) :
      BuildFault d (.rejected (.duplicateName .site n))
  | wire {n} (ends : ∀ p ∈ d.pips, d.Declares p) (sites : d.siteNames.Nodup)
      (repeated : FirstRepeated d.wireNames n) : BuildFault d (.rejected (.duplicateName .wire n))
  | pip {n} (ends : ∀ p ∈ d.pips, d.Declares p) (sites : d.siteNames.Nodup)
      (wires : d.wireNames.Nodup) (repeated : FirstRepeated d.pipNames n) :
      BuildFault d (.rejected (.duplicateName .pip n))

theorem consistent_or_buildFault (d : Description) :
    d.Consistent ∨ ∃ fault, d.BuildFault fault := by
  by_cases ends : ∀ p ∈ d.pips, d.Declares p
  · by_cases sites : d.siteNames.Nodup
    · by_cases wires : d.wireNames.Nodup
      · by_cases pips : d.pipNames.Nodup
        · exact .inl ⟨sites, wires, pips, ends⟩
        · obtain ⟨n, repeated⟩ := exists_firstRepeated pips
          exact .inr ⟨_, .pip ends sites wires repeated⟩
      · obtain ⟨n, repeated⟩ := exists_firstRepeated wires
        exact .inr ⟨_, .wire ends sites repeated⟩
    · obtain ⟨n, repeated⟩ := exists_firstRepeated sites
      exact .inr ⟨_, .site ends repeated⟩
  · obtain ⟨p, wire, first⟩ := exists_firstUndeclared ends
    obtain ⟨before, after, pips, declared, undeclared⟩ := firstUndeclared_iff.mp first
    exact .inr ⟨_, .unknownWire pips declared undeclared⟩

/-! ## Endpoints -/

/-- The endpoints are positions of the wires that a pip names. -/
structure Resolves (d : Description) (p : PipEntry) (e : Endpoints) : Prop where
  source : d.wireNames[e.source]? = some p.source
  target : d.wireNames[e.target]? = some p.target

theorem ResolvesLast.resolves {p : PipEntry} {e : Endpoints} (h : d.ResolvesLast p e) :
    d.Resolves p e :=
  ⟨h.source.named, h.target.named⟩

theorem exists_endpoints (h : ∀ p ∈ d.pips, d.Declares p) :
    ∃ es, d.endpoints = .ok es ∧ List.Forall₂ d.Resolves d.pips es := by
  obtain ⟨es, run⟩ := exists_endpoints_iff.mpr h
  exact ⟨es, run, (endpoints_eq_ok_iff.mp run).imp fun _ _ => ResolvesLast.resolves⟩

/-! ## Validity -/

theorem Valid.consistent (h : d.Valid) : d.Consistent :=
  ⟨h.sites.distinct, h.wires.distinct, h.pips.distinct, h.ends⟩

theorem Consistent.of_loadWith {read : String → Option Description} {document : String}
    (h : loadWith read document = .ok d) : d.Consistent :=
  (loadWith_eq_ok_iff.mp h).2.consistent

/-- The strings that an interner gets when a chip is built. -/
def strings (d : Description) : List String :=
  d.sites.flatMap (·.strings) ++ (d.wires.flatMap (·.strings) ++ d.pips.flatMap (·.strings))

theorem strings_subset_of_site {e : SiteEntry} (h : e ∈ d.sites) : e.strings ⊆ d.strings :=
  fun _ hs => List.mem_append_left _ (List.mem_flatMap_of_mem h hs)

theorem strings_subset_of_wire {e : WireEntry} (h : e ∈ d.wires) : e.strings ⊆ d.strings :=
  fun _ hs => List.mem_append_right _ (List.mem_append_left _ (List.mem_flatMap_of_mem h hs))

theorem strings_subset_of_pip {e : PipEntry} (h : e ∈ d.pips) : e.strings ⊆ d.strings :=
  fun _ hs => List.mem_append_right _ (List.mem_append_right _ (List.mem_flatMap_of_mem h hs))

end Description

/-! ## Building -/

namespace Draft

open Description

variable {d : Description} {names : Interner} {es : List Endpoints}

/-- The chip before the first entry of a description. -/
def start (names : Interner) (d : Description) : Draft :=
  ⟨names, { Chip.blank d.name with family := d.family }⟩

theorem ofDescription_of_endpoints (h : d.endpoints = .ok es) :
    ofDescription names d =
      d.sites.foldlM enterSite (start names d) >>=
        fun sited => d.wires.foldlM enterWire sited >>= (d.pips.zip es).foldlM enterPip := by
  rw [ofDescription, h]
  rfl

theorem admits_of_resolves (resolved : List.Forall₂ d.Resolves d.pips es) :
    ∀ e ∈ d.pips.zip es, e.1.strings ⊆ d.strings ∧ e.2.source < d.wires.length ∧
      e.2.target < d.wires.length := by
  rintro ⟨p, e⟩ mem
  have resolves := (List.forall₂_iff_zip.mp resolved).2 mem
  have inside {i : Nat} {wire : String} (h : d.wireNames[i]? = some wire) : i < d.wires.length := by
    simpa [wireNames] using (List.getElem?_eq_some_iff.mp h).1
  exact ⟨strings_subset_of_pip (List.of_mem_zip mem).1, inside resolves.source,
    inside resolves.target⟩

theorem map_name_zip (resolved : List.Forall₂ d.Resolves d.pips es) :
    (d.pips.zip es).map (·.1.name) = d.pipNames := by
  have pips : (d.pips.zip es).map Prod.fst = d.pips :=
    List.map_fst_zip (Nat.le_of_eq resolved.length_eq)
  rw [pipNames, ← pips, List.map_map, pips]
  rfl

section
variable (room : names.Fits d.strings)
include room

theorem start_inv : (start names d).Holds [] [] [] ∧ (start names d).names.Fits d.strings :=
  ⟨holds_blank names d.family d.name, room⟩

theorem foldlM_sites (distinct : d.siteNames.Nodup) :
    ∃ sited, d.sites.foldlM enterSite (start names d) = .ok sited ∧
      sited.Holds d.sites [] [] ∧ sited.names.Fits d.strings :=
  (enters_sites [] [] d.strings).foldlM_distinct (start_inv room)
    (fun _ => strings_subset_of_site) distinct

theorem foldlM_wires (distinct : d.siteNames.Nodup) (distinct' : d.wireNames.Nodup) :
    ∃ wired, d.sites.foldlM enterSite (start names d) >>= d.wires.foldlM enterWire = .ok wired ∧
      wired.Holds d.sites d.wires [] ∧ wired.names.Fits d.strings := by
  obtain ⟨sited, sites, inv⟩ := foldlM_sites room distinct
  rw [sites]
  exact (enters_wires d.sites [] d.strings).foldlM_distinct inv (fun _ => strings_subset_of_wire)
    distinct'

/-- A consistent description is built. The chip has exactly the described entries, with the
positions of the wires that its pips name. -/
theorem ofDescription_holds (h : d.Consistent) :
    ∃ es draft, List.Forall₂ d.Resolves d.pips es ∧ ofDescription names d = .ok draft ∧
      draft.Holds d.sites d.wires (d.pips.zip es) := by
  obtain ⟨es, ends, resolved⟩ := exists_endpoints h.ends
  obtain ⟨wired, wires, inv⟩ := foldlM_wires room h.sites h.wires
  obtain ⟨draft, pips, holds, _⟩ := (enters_pips d.sites d.wires d.strings).foldlM_distinct inv
    (admits_of_resolves resolved) ((map_name_zip resolved).symm ▸ h.pips)
  refine ⟨es, draft, resolved, ?_, holds⟩
  rw [ofDescription_of_endpoints ends, ← bind_assoc, wires]
  exact pips

theorem ofDescription_eq_error {fault : Fault} (h : d.BuildFault fault) :
    ofDescription names d = .error (.fault fault) := by
  cases h with
  | unknownWire pips declared undeclared =>
    have first := firstUndeclared_iff.mpr ⟨_, _, pips, declared, undeclared⟩
    rw [ofDescription, endpoints_eq_error_iff.mpr ⟨_, _, first, rfl⟩]
    rfl
  | site declared repeated =>
    obtain ⟨es, ends, _⟩ := exists_endpoints declared
    rw [ofDescription_of_endpoints ends, (enters_sites [] [] d.strings).foldlM_repeated
      (start_inv room) (fun _ => strings_subset_of_site) repeated]
    rfl
  | wire declared sites repeated =>
    obtain ⟨es, ends, _⟩ := exists_endpoints declared
    obtain ⟨sited, sites, inv⟩ := foldlM_sites room sites
    rw [ofDescription_of_endpoints ends, sites]
    change d.wires.foldlM enterWire sited >>= _ = _
    rw [(enters_wires d.sites [] d.strings).foldlM_repeated inv (fun _ => strings_subset_of_wire)
      repeated]
    rfl
  | pip declared sites wires repeated =>
    obtain ⟨es, ends, resolved⟩ := exists_endpoints declared
    obtain ⟨wired, wires, inv⟩ := foldlM_wires room sites wires
    rw [ofDescription_of_endpoints ends, ← bind_assoc, wires]
    exact (enters_pips d.sites d.wires d.strings).foldlM_repeated inv
      (admits_of_resolves resolved) ((map_name_zip resolved).symm ▸ repeated)

theorem consistent_of_ofDescription {draft : Draft} (run : ofDescription names d = .ok draft) :
    d.Consistent := by
  refine d.consistent_or_buildFault.resolve_right ?_
  rintro ⟨fault, wrong⟩
  cases run.symm.trans (ofDescription_eq_error room wrong)

end

/-- With room for its strings, a chip is built from a description exactly if the description is
consistent. It has the described entries, in order, and every pip has the positions of the wires
that it names. Otherwise the first fault of the description is answered; there is no other answer,
and no step is refused. So every description that a document is loaded as can be built, whatever
reads the documents. -/
theorem ofDescription_decides (room : names.Fits d.strings) :
    ((∃ draft, ofDescription names d = .ok draft) ↔ d.Consistent) ∧
    (∀ draft, ofDescription names d = .ok draft → ∃ es, List.Forall₂ d.Resolves d.pips es ∧
      draft.Holds d.sites d.wires (d.pips.zip es)) ∧
    (∀ fault, ofDescription names d = .error (.fault fault) ↔ d.BuildFault fault) ∧
    (∀ r, ofDescription names d ≠ .error (.refused r)) ∧
    ∀ (read : String → Option Description) document, loadWith read document = .ok d →
      ∃ draft, ofDescription names d = .ok draft := by
  have builds (h : d.Consistent) : ∃ draft, ofDescription names d = .ok draft := by
    obtain ⟨es, draft, _, run, _⟩ := ofDescription_holds room h
    exact ⟨draft, run⟩
  have failing (failure : BuildFailure) (run : ofDescription names d = .error failure) :
      ∃ fault, d.BuildFault fault ∧ failure = .fault fault := by
    rcases d.consistent_or_buildFault with consistent | ⟨fault, wrong⟩
    · obtain ⟨draft, built⟩ := builds consistent
      cases run.symm.trans built
    · cases run.symm.trans (ofDescription_eq_error room wrong)
      exact ⟨fault, wrong, rfl⟩
  refine ⟨⟨fun ⟨draft, run⟩ => consistent_of_ofDescription room run, builds⟩, ?_,
    fun fault => ⟨fun run => ?_, ofDescription_eq_error room⟩, fun r run => ?_,
    fun _ _ h => builds (.of_loadWith h)⟩
  · intro draft run
    obtain ⟨es, draft', resolved, run', holds⟩ :=
      ofDescription_holds room (consistent_of_ofDescription room run)
    cases run.symm.trans run'
    exact ⟨es, resolved, holds⟩
  · obtain ⟨_, wrong, same⟩ := failing _ run
    cases same
    exact wrong
  · obtain ⟨_, _, same⟩ := failing _ run
    cases same

/-! ## Small descriptions -/

/-- Two sites of one name, and a pip to a wire that is not there. -/
def tangled : Description where
  family := "generic"
  name := "tangled"
  sites := [⟨"A", "LUT", false, false, ∅⟩, ⟨"A", "FF", false, false, ∅⟩]
  wires := [⟨"W0", none, ∅⟩]
  pips := [⟨"P0", "W0", "W1", none, ∅⟩]

/-- A site, and a pip from a wire to itself. -/
def looped : Description where
  family := "generic"
  name := "looped"
  sites := [⟨"A", "LUT", false, false, ∅⟩]
  wires := [⟨"W0", none, ∅⟩]
  pips := [⟨"P0", "W0", "W0", none, ∅⟩]

def loopedDocument : String :=
  "[device]\nname = \"looped\"\n[[sites]]\nname = \"A\"\ntype = \"LUT\"\n" ++
  "[[wires]]\nname = \"W0\"\n[[pips]]\nname = \"P0\"\nsrc = \"W0\"\ndst = \"W0\"\n"

/-- Of the two faults the wire is answered; and what is read from the document is built. -/
theorem ofDescription_decides_tangled :
    (∅ : Interner).Fits tangled.strings ∧
    ofDescription ∅ tangled = .error (.fault (.unknownWire "P0" "W1")) ∧
    load loopedDocument = .ok looped ∧ ∃ draft, ofDescription ∅ looped = .ok draft := by
  have room : (∅ : Interner).Fits tangled.strings := by decide
  have pips : tangled.pips = [] ++ ⟨"P0", "W0", "W1", none, ∅⟩ :: [] := rfl
  have first : tangled.BuildFault (.unknownWire "P0" "W1") :=
    .unknownWire pips (List.forall_mem_nil _) (.target (by decide) (by decide))
  have read : load loopedDocument = .ok looped := by decide +kernel
  exact ⟨room, ((ofDescription_decides room).2.2.1 _).mpr first, read,
    (ofDescription_decides (by decide)).2.2.2.2 described? _ read⟩

end Draft

end Fabric
