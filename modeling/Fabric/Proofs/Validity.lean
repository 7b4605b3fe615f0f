import Fabric.Description.Reader
import Fabric.Proofs.Endpoints
import Mathlib.Data.List.Nodup
/-!
Validity of descriptions. The check of a description passes exactly if the description is valid, and
otherwise answers the first fault, in the order of its phases and in each of them from left to right
(`validate_decides`). So a document is loaded exactly if what it describes is valid. How documents
are read does not matter to this.
-/

namespace Fabric

theorem Kind.noun_injective : Function.Injective Kind.noun := by
  intro k k'
  cases k <;> cases k' <;> decide

namespace Description

variable {d : Description} {fault : Fault}

/-! ## Fields -/

theorem Field.text_siteType (site : String) :
    (siteType site).text = "sites." ++ site ++ ".type" := rfl

theorem Field.text_nameOf (kind : Kind) : (nameOf kind).text = kind.noun ++ "s.name" := rfl

/-- Only the texts of types end in another word. -/
theorem Field.text_siteType_ne (site start : String) : (siteType site).text ≠ start ++ "name" := by
  intro h
  have reversed := congrArg (·.toList.reverse) h
  simp [text_siteType] at reversed

/-- Fields that differ have different texts, so a fault about a field tells which one it is. -/
theorem Field.text_injective : Function.Injective Field.text := by
  have name (kind : Kind) : (nameOf kind).text = kind.noun ++ "s." ++ "name" := by
    rw [text_nameOf, String.append_assoc]
    rfl
  intro f g h
  cases f with
  | deviceName =>
    cases g with
    | deviceName => rfl
    | siteType site => exact absurd h.symm (text_siteType_ne site "device.")
    | nameOf kind => exact absurd h (by cases kind <;> decide)
  | siteType site =>
    cases g with
    | deviceName => exact absurd h (text_siteType_ne site "device.")
    | siteType site' =>
      rw [text_siteType, text_siteType, String.append_left_inj, String.append_right_inj] at h
      rw [h]
    | nameOf kind => exact absurd (h.trans (name kind)) (text_siteType_ne site _)
  | nameOf kind =>
    cases g with
    | deviceName => exact absurd h (by cases kind <;> decide)
    | siteType site => exact absurd (h.symm.trans (name kind)) (text_siteType_ne site _)
    | nameOf kind' =>
      rw [text_nameOf, text_nameOf, String.append_left_inj] at h
      rw [Kind.noun_injective h]

/-! ## Names -/

def siteNames (d : Description) : List String := d.sites.map (·.name)

def pipNames (d : Description) : List String := d.pips.map (·.name)

/-- No name is empty, and none is there twice. -/
structure WellNamed (names : List String) : Prop where
  filled : "" ∉ names
  distinct : names.Nodup

/-- The fault of the first name that is empty or that was there before. -/
inductive NameFault (kind : Kind) (names : List String) : Fault → Prop
  | empty {before after field} (split : names = before ++ "" :: after) (good : WellNamed before)
      (text : field.text = kind.noun ++ "s.name") : NameFault kind names (.missing field)
  | repeated {before n after} (split : names = before ++ n :: after) (good : WellNamed before)
      (again : n ∈ before) : NameFault kind names (.duplicateName kind n)

theorem WellNamed.nil : WellNamed [] := ⟨List.not_mem_nil, .nil⟩

theorem WellNamed.of_append {l r : List String} (h : WellNamed (l ++ r)) : WellNamed l :=
  ⟨fun mem => h.filled (List.mem_append_left r mem), h.distinct.of_append_left⟩

theorem wellNamed_append_singleton_iff {names : List String} {n : String} :
    WellNamed (names ++ [n]) ↔ WellNamed names ∧ n ≠ "" ∧ n ∉ names := by
  constructor
  · intro h
    refine ⟨h.of_append, ?_, ?_⟩
    · rintro rfl
      exact h.filled (List.mem_append_right names List.mem_cons_self)
    · exact fun mem => List.disjoint_of_nodup_append h.distinct mem List.mem_cons_self
  · rintro ⟨good, named, new⟩
    constructor
    · simpa [good.filled] using named.symm
    · exact good.distinct.append (List.nodup_singleton n) (List.disjoint_singleton.mpr new)

section
variable {kind : Kind} {before l : List String} {n : String}

/-- One step of the check. What it has seen are the names before, the last of them first. -/
theorem checkNames_cons : checkNames kind before.reverse (n :: l) =
    if n = "" then .error (.missing (.nameOf kind))
    else if n ∈ before then .error (.duplicateName kind n)
    else checkNames kind (before ++ [n]).reverse l := by
  simp [checkNames]

theorem checkNames_reverse_eq_ok_iff (good : WellNamed before) :
    checkNames kind before.reverse l = .ok () ↔ WellNamed (before ++ l) := by
  induction l generalizing before with
  | nil => simp [checkNames, good]
  | cons n l ih =>
    rw [checkNames_cons, List.append_cons before n l]
    split
    next empty =>
      exact iff_of_false nofun fun h => (wellNamed_append_singleton_iff.mp h.of_append).2.1 empty
    split
    next again =>
      exact iff_of_false nofun fun h => (wellNamed_append_singleton_iff.mp h.of_append).2.2 again
    next named new => exact ih (wellNamed_append_singleton_iff.mpr ⟨good, named, new⟩)

theorem checkNames_eq_ok_iff : checkNames kind [] l = .ok () ↔ WellNamed l :=
  checkNames_reverse_eq_ok_iff .nil

theorem checkNames_append (good : WellNamed before) :
    checkNames kind [] (before ++ l) = checkNames kind before.reverse l := by
  induction before using List.reverseRecOn generalizing l with
  | nil => rfl
  | append_singleton before n ih =>
    obtain ⟨good, named, new⟩ := wellNamed_append_singleton_iff.mp good
    rw [List.append_assoc, List.singleton_append, ih good, checkNames_cons, if_neg named,
      if_neg new]

theorem nameFault_of_checkNames (good : WellNamed before)
    (h : checkNames kind before.reverse l = .error fault) : NameFault kind (before ++ l) fault := by
  induction l generalizing before with
  | nil => cases h
  | cons n l ih =>
    rw [checkNames_cons] at h
    split at h
    next empty =>
      cases h
      exact .empty (congrArg (before ++ · :: l) empty) good rfl
    split at h
    next again =>
      cases h
      exact .repeated rfl good again
    next named new =>
      rw [List.append_cons]
      exact ih (wellNamed_append_singleton_iff.mpr ⟨good, named, new⟩) h

theorem checkNames_of_nameFault {names : List String} (h : NameFault kind names fault) :
    checkNames kind [] names = .error fault := by
  cases h with
  | @empty before after field split good text =>
    cases Field.text_injective (text.trans (Field.text_nameOf kind).symm)
    rw [split, checkNames_append good, checkNames_cons, if_pos rfl]
  | @repeated before n after split good again =>
    have named : n ≠ "" := fun empty => good.filled (empty ▸ again)
    rw [split, checkNames_append good, checkNames_cons, if_neg named, if_pos again]

theorem checkNames_eq_error_iff {names : List String} :
    checkNames kind [] names = .error fault ↔ NameFault kind names fault :=
  ⟨nameFault_of_checkNames .nil, checkNames_of_nameFault⟩

end

/-! ## Phases -/

theorem checkDeviceName_eq_ok_iff : d.checkDeviceName = .ok () ↔ d.name ≠ "" := by
  by_cases h : d.name = "" <;> simp [checkDeviceName, h]

theorem checkDeviceName_eq_error_iff :
    d.checkDeviceName = .error fault ↔ d.name = "" ∧ fault = .missing .deviceName := by
  by_cases h : d.name = "" <;> simp [checkDeviceName, h, eq_comm]

theorem checkSiteTypes_eq_ok_iff {l : List SiteEntry} :
    checkSiteTypes l = .ok () ↔ ∀ s ∈ l, s.type ≠ "" := by
  induction l with
  | nil => simp [checkSiteTypes]
  | cons s l ih => by_cases h : s.type = "" <;> simp [checkSiteTypes, h, ih]

theorem checkSiteTypes_eq_error_iff {l : List SiteEntry} : checkSiteTypes l = .error fault ↔
    ∃ s, l.find? (·.type = "") = some s ∧ fault = .missing (.siteType s.name) := by
  induction l with
  | nil => simp [checkSiteTypes]
  | cons s l ih => by_cases h : s.type = "" <;> simp [checkSiteTypes, h, ih, eq_comm (a := fault)]

theorem checkEnds_eq_ok_iff :
    (d.endpoints >>= fun _ => .ok ()) = .ok () ↔ ∀ p ∈ d.pips, d.Declares p := by
  simp [bind_eq_ok_iff_exists, exists_endpoints_iff]

theorem checkEnds_eq_error_iff :
    (d.endpoints >>= fun _ => .ok ()) = (.error fault : Except Fault Unit) ↔
      ∃ p wire, d.FirstUndeclared d.pips p wire ∧ fault = .unknownWire p.name wire := by
  simp [bind_eq_error_iff_exists, endpoints_eq_error_iff]

/-! ## Validity -/

/-- Everything has a name and every site a type, no two entries of a kind have one name, and pips
name wires of the description. -/
structure Valid (d : Description) : Prop where
  named : d.name ≠ ""
  typed : ∀ s ∈ d.sites, s.type ≠ ""
  sites : WellNamed d.siteNames
  wires : WellNamed d.wireNames
  pips : WellNamed d.pipNames
  ends : ∀ p ∈ d.pips, d.Declares p

/-- What is wrong with a description that is not valid. The name of the device comes first, then the
types of sites, the names of sites, of wires and of pips, and at last the ends of pips. -/
inductive FirstFault (d : Description) : Fault → Prop
  | deviceName {field} (empty : d.name = "") (text : field.text = "device.name") :
      FirstFault d (.missing field)
  | siteType {s field} (named : d.name ≠ "") (first : d.sites.find? (·.type = "") = some s)
      (text : field.text = "sites." ++ s.name ++ ".type") : FirstFault d (.missing field)
  | siteName {fault : Fault} (named : d.name ≠ "") (typed : ∀ s ∈ d.sites, s.type ≠ "")
      (first : NameFault .site d.siteNames fault) : FirstFault d fault
  | wireName {fault : Fault} (named : d.name ≠ "") (typed : ∀ s ∈ d.sites, s.type ≠ "")
      (sites : WellNamed d.siteNames) (first : NameFault .wire d.wireNames fault) :
      FirstFault d fault
  | pipName {fault : Fault} (named : d.name ≠ "") (typed : ∀ s ∈ d.sites, s.type ≠ "")
      (sites : WellNamed d.siteNames) (wires : WellNamed d.wireNames)
      (first : NameFault .pip d.pipNames fault) : FirstFault d fault
  | unknownWire {p wire} (named : d.name ≠ "") (typed : ∀ s ∈ d.sites, s.type ≠ "")
      (sites : WellNamed d.siteNames) (wires : WellNamed d.wireNames) (pips : WellNamed d.pipNames)
      (first : d.FirstUndeclared d.pips p wire) : FirstFault d (.unknownWire p.name wire)

theorem validate_eq_ok_iff : d.validate = .ok () ↔ d.Valid := by
  simp only [validate, bind_eq_ok_iff, checkDeviceName_eq_ok_iff, checkSiteTypes_eq_ok_iff,
    checkNames_eq_ok_iff, checkEnds_eq_ok_iff]
  constructor
  · rintro ⟨named, typed, sites, wires, pips, ends⟩
    exact ⟨named, typed, sites, wires, pips, ends⟩
  · rintro ⟨named, typed, sites, wires, pips, ends⟩
    exact ⟨named, typed, sites, wires, pips, ends⟩

theorem validate_eq_error_iff : d.validate = .error fault ↔ d.FirstFault fault := by
  simp only [validate, bind_eq_error_iff, checkDeviceName_eq_ok_iff, checkDeviceName_eq_error_iff,
    checkSiteTypes_eq_ok_iff, checkSiteTypes_eq_error_iff, checkNames_eq_ok_iff,
    checkNames_eq_error_iff, checkEnds_eq_error_iff]
  -- Left are the same cases on both sides: a phase is reached if all phases before it pass.
  constructor
  · rintro (⟨empty, rfl⟩ | ⟨named, ⟨s, first, rfl⟩ | ⟨typed, first | ⟨sites, first |
      ⟨wires, first | ⟨pips, p, wire, first, rfl⟩⟩⟩⟩⟩)
    · exact .deviceName empty rfl
    · exact .siteType named first rfl
    · exact .siteName named typed first
    · exact .wireName named typed sites first
    · exact .pipName named typed sites wires first
    · exact .unknownWire named typed sites wires pips first
  · intro h
    cases h with
    | deviceName empty text => exact .inl ⟨empty, congrArg _ (Field.text_injective text)⟩
    | siteType named first text =>
      exact .inr ⟨named, .inl ⟨_, first, congrArg _ (Field.text_injective text)⟩⟩
    | siteName named typed first => exact .inr ⟨named, .inr ⟨typed, .inl first⟩⟩
    | wireName named typed sites first =>
      exact .inr ⟨named, .inr ⟨typed, .inr ⟨sites, .inl first⟩⟩⟩
    | pipName named typed sites wires first =>
      exact .inr ⟨named, .inr ⟨typed, .inr ⟨sites, .inr ⟨wires, .inl first⟩⟩⟩⟩
    | unknownWire named typed sites wires pips first =>
      exact .inr ⟨named, .inr ⟨typed, .inr ⟨sites, .inr ⟨wires, .inr ⟨pips, _, _, first, rfl⟩⟩⟩⟩⟩

/-! ## Documents -/

section
variable {read : String → Option Description} {document : String}

theorem loadWith_of_read (h : read document = some d) :
    loadWith read document = d.validate >>= fun _ => .ok d := by
  rw [loadWith, h]

theorem loadWith_eq_ok_iff :
    loadWith read document = .ok d ↔ read document = some d ∧ d.Valid := by
  constructor
  · intro loaded
    cases h : read document with
    | none =>
      rw [loadWith, h] at loaded
      cases loaded
    | some d' =>
      rw [loadWith_of_read h, bind_eq_ok_iff, validate_eq_ok_iff] at loaded
      obtain ⟨valid, same⟩ := loaded
      cases same
      exact ⟨rfl, valid⟩
  · rintro ⟨h, valid⟩
    rw [loadWith_of_read h, validate_eq_ok_iff.mpr valid]
    rfl

theorem loadWith_eq_error_iff (h : read document = some d) :
    loadWith read document = .error fault ↔ d.FirstFault fault := by
  rw [loadWith_of_read h, bind_eq_error_iff, validate_eq_error_iff]
  simp

end

/-- The check of a description passes exactly if the description is valid, and otherwise answers its
first fault; there is no other answer. So whatever reads the documents, one is loaded exactly if it
is read as a valid description, and if it is read as another, the first fault of this description is
answered. -/
theorem validate_decides (d : Description) :
    (d.validate = .ok () ↔ d.Valid) ∧ (∀ fault, d.validate = .error fault ↔ d.FirstFault fault) ∧
    ∀ (read : String → Option Description) document,
      (loadWith read document = .ok d ↔ read document = some d ∧ d.Valid) ∧
      (read document = some d →
        ∀ fault, loadWith read document = .error fault ↔ d.FirstFault fault) :=
  ⟨validate_eq_ok_iff, fun _ => validate_eq_error_iff, fun _ _ =>
    ⟨loadWith_eq_ok_iff, fun h _ => loadWith_eq_error_iff h⟩⟩

/-- Two wires of one name, and a pip without a name to no wire. -/
def faulty : Description where
  family := "generic"
  name := "faulty"
  sites := []
  wires := [⟨"W0", none, ∅⟩, ⟨"W0", none, ∅⟩]
  pips := [⟨"", "W0", "W1", none, ∅⟩]

def faultyDocument : String :=
  "[device]\nname = \"faulty\"\n[[wires]]\nname = \"W0\"\n[[wires]]\nname = \"W0\"\n" ++
  "[[pips]]\nname = \"\"\nsrc = \"W0\"\ndst = \"W1\"\n"

/-- Of the three faults the name that two wires have is answered. -/
theorem validate_decides_faulty :
    described? faultyDocument = some faulty ∧ faulty.FirstFault (.duplicateName .wire "W0") ∧
      load faultyDocument = .error (.duplicateName .wire "W0") := by
  have read : described? faultyDocument = some faulty := by decide +kernel
  have wires : faulty.wireNames = ["W0"] ++ "W0" :: [] := rfl
  have repeated : NameFault .wire faulty.wireNames (.duplicateName .wire "W0") :=
    .repeated wires ⟨by decide, by decide⟩ (by decide)
  have first : faulty.FirstFault (.duplicateName .wire "W0") :=
    .wireName (by decide) (by decide) .nil repeated
  exact ⟨read, first,
    (((validate_decides faulty).2.2 described? faultyDocument).2 read _).mpr first⟩

end Description

end Fabric
