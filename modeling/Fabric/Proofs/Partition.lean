import Fabric.Device.Listed
import Fabric.Device.Partition
import Fabric.Proofs.ByteOrder
import Mathlib.Tactic.FinCases
/-!
The types and buckets of a device's sites. Two passes fill the buckets: one opens those of the
types, the other puts every site into the bucket that the device names for it, which need not be one
that was opened. Whatever the device answers, each bucket ends with its sites in the order of the
device, and all of them together are the sites of the device.
-/

namespace Fabric

variable {β : Type} [BucketKey β]

/-! ## Symbols by name -/

namespace Interner

/-- The name of one symbol comes before that of another, byte by byte. -/
def Before (names : Interner) (t u : Symbol) : Prop :=
  ∃ x y, names.text? t = some x ∧ names.text? u = some y ∧ utf8 x < utf8 y

/-- The map holds the symbols with a property under their names. -/
def Collected (names : Interner) (P : Symbol → Prop) (found : SortedMap String Symbol) : Prop :=
  ∀ x t, found.get? x = some t ↔ names.text? t = some x ∧ P t

variable {names : Interner}

theorem Collected.insert {P : Symbol → Prop} {found : SortedMap String Symbol}
    (h : Collected names P found) {t : Symbol} {x : String} (named : names.text? t = some x) :
    Collected names (fun u => P u ∨ u = t) (found.insert x t) := by
  intro y u
  rw [SortedMap.get?_insert]
  split
  next e =>
    constructor
    · intro ht
      cases ht
      exact ⟨e ▸ named, .inr rfl⟩
    · intro hu
      -- A name stands for one symbol, so the entry replaces none of another symbol.
      rw [names.text?_inj named (e ▸ hu.1)]
  next hne =>
    rw [h y u]
    refine and_congr_right fun hu => ⟨.inl, fun hp => hp.resolve_right fun e => hne ?_⟩
    rw [e, named] at hu
    exact (Option.some.inj hu).symm

/-- Symbols that have names are collected. -/
theorem exists_byName {P : Symbol → Prop} {found : SortedMap String Symbol} {l : List Symbol}
    (h : Collected names P found) (named : ∀ t ∈ l, ∃ x, names.text? t = some x) :
    ∃ found', names.byName l found = .ok found' ∧
      Collected names (fun t => P t ∨ t ∈ l) found' := by
  induction l generalizing P found with
  | nil => exact ⟨found, rfl, by simpa using h⟩
  | cons t l ih =>
    obtain ⟨x, hx⟩ := named t List.mem_cons_self
    obtain ⟨found', run, collected⟩ :=
      ih (h.insert hx) fun u hu => named u (List.mem_cons_of_mem t hu)
    refine ⟨found', by rw [byName, hx]; exact run, fun y u => (collected y u).trans ?_⟩
    simp only [List.mem_cons, or_assoc]

/-- The values of a map by name stand in the order of their names. -/
theorem Collected.pairwise_values {P : Symbol → Prop} {found : SortedMap String Symbol}
    (h : Collected names P found) : found.values.Pairwise names.Before := by
  rw [SortedMap.values, List.pairwise_map]
  refine found.sorted.imp_of_mem fun {e e'} he he' lt => ?_
  have left := (h _ _).1 ((found.mem_entries_iff _ _).1 he)
  have right := (h _ _).1 ((found.mem_entries_iff _ _).1 he')
  exact ⟨e.1, e'.1, left.1, right.1, compare_eq_lt_iff_utf8.1 lt⟩

/-- Symbols that have names are sorted, which drops none. -/
theorem exists_sortByName {l : List Symbol} (named : ∀ t ∈ l, ∃ x, names.text? t = some x) :
    ∃ l', names.sortByName l = .ok l' ∧ (∀ t, t ∈ l' ↔ t ∈ l) ∧ l'.Pairwise names.Before := by
  match l with
  | [] => exact ⟨[], rfl, fun t => .rfl, .nil⟩
  | [x] => exact ⟨[x], rfl, fun t => .rfl, List.pairwise_singleton _ x⟩
  | x :: y :: r =>
    have nothing : Collected names (fun _ => False) ∅ := by simp [Collected]
    obtain ⟨found, run, collected⟩ := exists_byName nothing named
    refine ⟨found.values, by simp [sortByName, run, Except.map], fun t => ?_,
      collected.pairwise_values⟩
    rw [SortedMap.mem_values_iff]
    constructor
    · rintro ⟨s, ht⟩
      exact ((collected s t).1 ht).2.resolve_left id
    · intro mem
      obtain ⟨s, hs⟩ := named t mem
      exact ⟨s, (collected s t).2 ⟨hs, .inr mem⟩⟩

end Interner

namespace Device

/-- The answers without which the sites of a device have no types or buckets: the type of every
site, which has a name and a bucket, and the bucket of the site itself. -/
structure Sortable (d : Device β) (names : Interner) : Prop where
  typed : ∀ s ∈ d.sites, ∃ t x b, d.siteType s = .ok t ∧ names.text? t = some x ∧
    d.bucketOfType t = .ok b
  placed : ∀ s ∈ d.sites, ∃ b, d.bucketOfSite s = .ok b

/-! ## Types -/

/-- The types of the sites are listed once each, in the order of their names. -/
theorem Sortable.exists_types {d : Device β} {names : Interner} (h : d.Sortable names) :
    ∃ types, d.types names = .ok types ∧
      (∀ t, t ∈ types ↔ ∃ s ∈ d.sites, d.siteType s = .ok t) ∧ types.Pairwise names.Before := by
  obtain ⟨all, answers⟩ : ∃ all, d.sites.mapM d.siteType = .ok all := by
    refine exists_mapM fun s hs => ?_
    obtain ⟨t, _, _, ht, _⟩ := h.typed s hs
    exact ⟨t, ht⟩
  have mem_all (t : Symbol) : t ∈ all.eraseDups ↔ ∃ s ∈ d.sites, d.siteType s = .ok t := by
    rw [List.mem_eraseDups, mem_of_mapM answers]
  have named : ∀ t ∈ all.eraseDups, ∃ x, names.text? t = some x := by
    intro t ht
    obtain ⟨s, hs, type⟩ := (mem_all t).1 ht
    obtain ⟨_, x, _, type', text, _⟩ := h.typed s hs
    cases type.symm.trans type'
    exact ⟨x, text⟩
  obtain ⟨types, sort, mem_types, ascending⟩ := Interner.exists_sortByName named
  refine ⟨types, ?_, fun t => (mem_types t).trans (mem_all t), ascending⟩
  rw [Device.types, answers]
  exact sort

/-- Whether the device puts a site into a bucket. -/
def puts (d : Device β) (b : β) (s : Site) : Bool :=
  match d.bucketOfSite s with
  | .ok b' => compare b' b = .eq
  | .error _ => false

@[simp] theorem puts_iff {d : Device β} {b : β} {s : Site} :
    d.puts b s = true ↔ d.bucketOfSite s = .ok b := by
  unfold puts
  split
  next b' h => simp [h]
  next r h => simp [h]

end Device

/-! ## Buckets -/

namespace Partition

theorem mem_buckets_iff {p : Partition β} {b : β} : b ∈ p.buckets ↔ (p.get? b).isSome = true :=
  p.sites.mem_keys_iff b

theorem not_mem_buckets_iff {p : Partition β} {b : β} : b ∉ p.buckets ↔ p.get? b = none := by
  rw [mem_buckets_iff, Bool.not_eq_true, Option.isSome_eq_false_iff, Option.isNone_iff_eq_none]

/-- The sites in all buckets, bucket by bucket. -/
def allSites (p : Partition β) : List Site := p.sites.values.flatten

/-- A bucket and the other buckets have all sites. -/
theorem allSites_perm (p : Partition β) (b : β) :
    p.allSites.Perm ((p.get? b).getD [] ++ (p.sites.erase b).values.flatten) := by
  cases hb : p.get? b with
  | none =>
    rw [SortedMap.erase_of_get?_eq_none hb]
    exact .refl _
  | some l => exact ((SortedMap.entries_perm_erase hb).map _).flatten

/-! ## One step -/

section
variable [DecidableEq β]

theorem get?_opened (p : Partition β) (b b' : β) :
    (p.opened b).get? b' = if b' = b then some ((p.get? b).getD []) else p.get? b' := by
  unfold opened
  split
  next there =>
    obtain ⟨l, hl⟩ := Option.isSome_iff_exists.1 there
    split
    next e => simp [get?, e, hl]
    · rfl
  next new =>
    have none : p.sites.get? b = none := by simpa [SortedMap.contains] using new
    simp [get?, SortedMap.get?_insert, none]

theorem get?_push (p : Partition β) (b b' : β) (s : Site) :
    (p.push b s).get? b' = if b' = b then some ((p.get? b).getD [] ++ [s]) else p.get? b' :=
  p.sites.get?_insert b b' _

theorem allSites_insert (p : Partition β) (b : β) (l : List Site) :
    (⟨p.sites.insert b l⟩ : Partition β).allSites.Perm
      (l ++ (p.sites.erase b).values.flatten) :=
  ((p.sites.entries_perm_insert b l).map _).flatten

theorem allSites_opened (p : Partition β) (b : β) : (p.opened b).allSites.Perm p.allSites := by
  unfold opened
  split
  · exact .refl _
  next new =>
    have none : p.get? b = none := by simpa [get?, SortedMap.contains] using new
    have before := p.allSites_perm b
    rw [none] at before
    exact (p.allSites_insert b []).trans before.symm

theorem allSites_push (p : Partition β) (b : β) (s : Site) :
    (p.push b s).allSites.Perm (s :: p.allSites) := by
  have after := p.allSites_insert b ((p.get? b).getD [] ++ [s])
  rw [List.append_assoc] at after
  exact after.trans (List.perm_middle.trans ((p.allSites_perm b).symm.cons s))

end

/-! ## The two passes -/

/-- What filling does to a partition: it opens some buckets, and appends the sites of a list, each
to the bucket that the device puts it into. -/
structure Grows (d : Device β) (p p' : Partition β) (opens : β → Prop) (sites : List Site) :
    Prop where
  buckets : ∀ b, b ∈ p'.buckets ↔ b ∈ p.buckets ∨ opens b
  sitesOf : ∀ b, (p'.get? b).getD [] = (p.get? b).getD [] ++ sites.filter (d.puts b)
  allSites : p'.allSites.Perm (p.allSites ++ sites)

namespace Grows

variable {d : Device β} {p p' p'' : Partition β} {opens opens' : β → Prop} {l l' : List Site}

theorem trans (h : Grows d p p' opens l) (h' : Grows d p' p'' opens' l') :
    Grows d p p'' (fun b => opens b ∨ opens' b) (l ++ l') where
  buckets b := by rw [h'.buckets, h.buckets, or_assoc]
  sitesOf b := by rw [h'.sitesOf, h.sitesOf, List.filter_append, List.append_assoc]
  allSites := by
    rw [← List.append_assoc]
    exact h'.allSites.trans (h.allSites.append_right l')

theorem of_iff (h : Grows d p p' opens l) (same : ∀ b, opens b ↔ opens' b) :
    Grows d p p' opens' l where
  buckets b := by rw [h.buckets, same]
  sitesOf := h.sitesOf
  allSites := h.allSites

theorem opened (d : Device β) (p : Partition β) (b : β) :
    Grows d p (p.opened b) (fun b' => b' = b) [] := by
  classical
  refine ⟨fun b' => ?_, fun b' => ?_, ?_⟩
  · rw [mem_buckets_iff, mem_buckets_iff, get?_opened]
    split <;> simp [*]
  · rw [get?_opened]
    split <;> simp [*]
  · rw [List.append_nil]
    exact p.allSites_opened b

theorem push {s : Site} {b : β} (hb : d.bucketOfSite s = .ok b) (p : Partition β) :
    Grows d p (p.push b s) (fun b' => b' = b) [s] := by
  classical
  refine ⟨fun b' => ?_, fun b' => ?_, ?_⟩
  · rw [mem_buckets_iff, mem_buckets_iff, get?_push]
    split <;> simp [*]
  · rw [get?_push]
    by_cases e : b' = b
    · have here : d.puts b s = true := Device.puts_iff.2 hb
      simp [e, here]
    · have elsewhere : ¬ d.puts b' s = true := by simp [hb, Ne.symm e]
      simp [e, elsewhere]
  · exact (p.allSites_push b s).trans (List.perm_append_singleton s _).symm

theorem openAll {types : List Symbol} (run : Partition.openAll d types p = .ok p') :
    Grows d p p' (fun b => ∃ t ∈ types, d.bucketOfType t = .ok b) [] := by
  induction types generalizing p with
  | nil =>
    cases run
    exact ⟨by simp, by simp, by simp⟩
  | cons t types ih =>
    cases hb : d.bucketOfType t with
    | error r => simp [Partition.openAll, hb, bind, Except.bind] at run
    | ok b =>
      simp only [Partition.openAll, hb, bind, Except.bind] at run
      exact ((opened d p b).trans (ih run)).of_iff (by simp [hb, eq_comm])

theorem pushAll {sites : List Site} (run : Partition.pushAll d sites p = .ok p') :
    Grows d p p' (fun b => ∃ s ∈ sites, d.bucketOfSite s = .ok b) sites := by
  induction sites generalizing p with
  | nil =>
    cases run
    exact ⟨by simp, by simp, by simp⟩
  | cons s sites ih =>
    cases hb : d.bucketOfSite s with
    | error r => simp [Partition.pushAll, hb, bind, Except.bind] at run
    | ok b =>
      simp only [Partition.pushAll, hb, bind, Except.bind] at run
      exact ((push hb p).trans (ih run)).of_iff (by simp [hb, eq_comm])

end Grows

theorem exists_openAll {d : Device β} {types : List Symbol}
    (answers : ∀ t ∈ types, ∃ b, d.bucketOfType t = .ok b) (p : Partition β) :
    ∃ p', openAll d types p = .ok p' := by
  induction types generalizing p with
  | nil => exact ⟨p, rfl⟩
  | cons t types ih =>
    obtain ⟨b, hb⟩ := answers t List.mem_cons_self
    have rest := ih (fun u hu => answers u (List.mem_cons_of_mem t hu)) (p.opened b)
    simpa [openAll, hb, bind, Except.bind] using rest

theorem exists_pushAll {d : Device β} {sites : List Site}
    (answers : ∀ s ∈ sites, ∃ b, d.bucketOfSite s = .ok b) (p : Partition β) :
    ∃ p', pushAll d sites p = .ok p' := by
  induction sites generalizing p with
  | nil => exact ⟨p, rfl⟩
  | cons s sites ih =>
    obtain ⟨b, hb⟩ := answers s List.mem_cons_self
    have rest := ih (fun u hu => answers u (List.mem_cons_of_mem s hu)) (p.push b s)
    simpa [pushAll, hb, bind, Except.bind] using rest

/-! ## The partition of a device -/

/-- The partition of a device grows out of the empty one in the two passes. -/
theorem ofDevice_grows {d : Device β} {types : List Symbol} {p : Partition β}
    (run : ofDevice d types = .ok p) :
    Grows d empty p (fun b => (∃ t ∈ types, d.bucketOfType t = .ok b) ∨
      ∃ s ∈ d.sites, d.bucketOfSite s = .ok b) d.sites := by
  cases opening : openAll d types empty with
  | error r => simp [ofDevice, opening, bind, Except.bind] at run
  | ok opened =>
    simp only [ofDevice, opening, bind, Except.bind] at run
    exact (Grows.openAll opening).trans (.pushAll run)

theorem getD_ofDevice {d : Device β} {types : List Symbol} {p : Partition β}
    (run : ofDevice d types = .ok p) (b : β) :
    (p.get? b).getD [] = d.sites.filter (d.puts b) :=
  (ofDevice_grows run).sitesOf b

/-- Every device that answers for its sites has types and a partition. The types are those of the
sites, ascending by name. The buckets are those of the types and those of the sites, ascending, and
each has the sites that the device puts into it, in the order of the device and as often as the
device lists them; nothing else is a bucket. All buckets together have exactly the device's
sites. -/
theorem ofDevice_sorted {d : Device β} {names : Interner} (h : d.Sortable names) :
    ∃ types p, d.types names = .ok types ∧ ofDevice d types = .ok p ∧
      (∀ t, t ∈ types ↔ ∃ s ∈ d.sites, d.siteType s = .ok t) ∧
      types.Pairwise names.Before ∧
      (∀ b, b ∈ p.buckets ↔ (∃ t ∈ types, d.bucketOfType t = .ok b) ∨
        ∃ s ∈ d.sites, d.bucketOfSite s = .ok b) ∧
      p.buckets.Pairwise (fun b b' => compare b b' = .lt) ∧
      (∀ b ∈ p.buckets, p.sitesIn b = .ok (d.sites.filter (d.puts b)) ∧
        p.get? b = some (d.sites.filter (d.puts b))) ∧
      (∀ b, b ∉ p.buckets ↔ p.get? b = none) ∧
      (∀ b, b ∉ p.buckets ↔ p.sitesIn b = .error (.unknownBucket (BucketKey.longText b))) ∧
      p.sites.values.flatten.Perm d.sites ∧ p.siteCount = d.sites.length := by
  obtain ⟨types, collect, mem_types, ascending⟩ := h.exists_types
  have answers : ∀ t ∈ types, ∃ b, d.bucketOfType t = .ok b := by
    intro t ht
    obtain ⟨s, hs, type⟩ := (mem_types t).1 ht
    obtain ⟨u, x, b, hu, _, hb⟩ := h.typed s hs
    cases type.symm.trans hu
    exact ⟨b, hb⟩
  obtain ⟨opened, opening⟩ := exists_openAll answers empty
  obtain ⟨p, pushing⟩ := exists_pushAll h.placed opened
  have build : ofDevice d types = .ok p := by
    simp [ofDevice, opening, pushing, bind, Except.bind]
  have grows := ofDevice_grows build
  have listed : ∀ b ∈ p.buckets, p.get? b = some (d.sites.filter (d.puts b)) := by
    intro b hb
    obtain ⟨l, hl⟩ := Option.isSome_iff_exists.1 (mem_buckets_iff.1 hb)
    have := getD_ofDevice build b
    rw [hl] at this ⊢
    exact congrArg some this
  have all : p.sites.values.flatten.Perm d.sites := grows.allSites
  refine ⟨types, p, collect, build, mem_types, ascending, fun b => ?_, ?_, fun b hb => ?_,
    fun b => not_mem_buckets_iff, fun b => ?_, all, all.length_eq⟩
  · rw [grows.buckets b]
    exact or_iff_right (by simp [mem_buckets_iff, empty, get?])
  · rw [buckets, SortedMap.keys, List.pairwise_map]
    exact p.sites.sorted
  · exact ⟨by rw [sitesIn, listed b hb], listed b hb⟩
  · rw [not_mem_buckets_iff, sitesIn]
    cases p.get? b <;> simp

/-! ## A small device -/

/-- Three sites, the first and the last of them the same. The two types share a bucket, and the
device puts the second site into one of its own. -/
def shared : Device Symbol :=
  (⟨"f", "t", [(⟨0⟩, ⟨0⟩), (⟨1⟩, ⟨1⟩), (⟨0⟩, ⟨0⟩)], [], ∅⟩ : Listing).sharedDevice
    ⟨[], [(⟨0⟩, ⟨7⟩), (⟨1⟩, ⟨7⟩)], [(⟨1⟩, ⟨5⟩)]⟩

def sharedNames : Interner := ⟨["LUT", "FF"], by decide⟩

theorem shared_sortable : shared.Sortable sharedNames where
  typed := by
    intro s hs
    fin_cases hs <;> exact ⟨_, _, _, rfl, rfl, rfl⟩
  placed := by
    intro s hs
    fin_cases hs <;> exact ⟨_, rfl⟩

/-- The device has a partition, with the types in the order of their names and each site once for
every time that it is listed. -/
theorem shared_sorted : shared.Sortable sharedNames ∧ ∃ p,
    shared.types sharedNames = .ok [⟨1⟩, ⟨0⟩] ∧ ofDevice shared [⟨1⟩, ⟨0⟩] = .ok p ∧
      p.buckets.Pairwise (fun b b' => compare b b' = .lt) ∧ p.sitesIn ⟨7⟩ = .ok [⟨0⟩, ⟨0⟩] ∧
      p.sitesIn ⟨5⟩ = .ok [⟨1⟩] ∧ p.get? ⟨0⟩ = none ∧ p.siteCount = 3 := by
  obtain ⟨types, p, collect, build, _, _, mem_buckets, ascending, sites, _, _, _, count⟩ :=
    ofDevice_sorted shared_sortable
  cases collect.symm.trans (rfl : shared.types sharedNames = .ok [⟨1⟩, ⟨0⟩])
  have seven : (⟨7⟩ : Symbol) ∈ p.buckets :=
    (mem_buckets _).2 (.inl ⟨⟨1⟩, List.mem_cons_self, rfl⟩)
  have five : (⟨5⟩ : Symbol) ∈ p.buckets := (mem_buckets _).2 (.inr ⟨⟨1⟩, by decide, rfl⟩)
  refine ⟨shared_sortable, p, rfl, build, ascending, (sites _ seven).1, (sites _ five).1, ?_, count⟩
  cases build
  rfl

end Partition

end Fabric
