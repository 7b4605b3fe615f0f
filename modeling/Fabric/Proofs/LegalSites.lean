import Fabric.Proofs.Partition
import Fabric.Proofs.Reachable
/-!
Legal sites. A layout looks for the sites of a type in the type's bucket alone, and the buckets are
those of the time when the layout was made. As long as the device is the same and accepts no site of
another bucket, this finds what a scan of all sites would find. Devices that keep the default
answers about placement accept no other sites, whatever their buckets are.
-/

namespace Fabric

variable {β : Type} [BucketKey β]

namespace Device

/-- Whether the device answers that it accepts a site for a type. -/
def takes (d : Device β) (t : Symbol) (s : Site) : Bool :=
  match d.accepts t s with
  | .ok yes => yes
  | .error _ => false

@[simp] theorem takes_iff {d : Device β} {t : Symbol} {s : Site} :
    d.takes t s = true ↔ d.accepts t s = .ok true := by
  unfold takes
  split
  next yes h => simp [h]
  next r h => simp [h]

/-- The sites of a device that it accepts for a type. -/
def accepting (d : Device β) (t : Symbol) : List Site := d.sites.filter (d.takes t)

/-- A site that the device accepts for a type is in the bucket of the type. -/
def AcceptsInBuckets (d : Device β) : Prop :=
  ∀ t b, d.bucketOfType t = .ok b → ∀ s ∈ d.sites, d.accepts t s = .ok true →
    d.bucketOfSite s = .ok b

/-- A device with the default answers about single sites: it accepts a site for the site's own type,
and puts it into the bucket of that type. -/
structure KeepsPlacement (d : Device β) : Prop where
  accepts : ∀ t s, d.accepts t s = do
    let own ← d.siteType s
    .ok (t = own)
  bucketOfSite : ∀ s, d.bucketOfSite s = do
    let own ← d.siteType s
    d.bucketOfType own

namespace KeepsPlacement

variable {d : Device β}

theorem accepts_of_siteType (h : d.KeepsPlacement) {s : Site} {own : Symbol}
    (type : d.siteType s = .ok own) (t : Symbol) : d.accepts t s = .ok (decide (t = own)) := by
  simp [h.accepts, type, bind, Except.bind]

theorem acceptsInBuckets (h : d.KeepsPlacement) : d.AcceptsInBuckets := by
  intro t b hb s _ yes
  cases type : d.siteType s with
  | error r => simp [h.accepts, type, bind, Except.bind] at yes
  | ok own =>
    have same : t = own := by simpa [h.accepts_of_siteType type] using yes
    simpa [h.bucketOfSite, type, bind, Except.bind, ← same] using hb

end KeepsPlacement

end Device

theorem Chip.keepsPlacement (c : Chip) : c.device.KeepsPlacement :=
  ⟨fun _ _ => rfl, fun _ => rfl⟩

namespace Layout

theorem acceptedAmong_eq {d : Device β} {t : Symbol} {sites : List Site}
    (answers : ∀ s ∈ sites, ∃ yes, d.accepts t s = .ok yes) :
    acceptedAmong d t sites = .ok (sites.filter (d.takes t)) := by
  induction sites with
  | nil => rfl
  | cons s sites ih =>
    obtain ⟨yes, hs⟩ := answers s List.mem_cons_self
    have rest := ih fun s' hs' => answers s' (List.mem_cons_of_mem s hs')
    have kept : d.takes t s = yes := by simp [Device.takes, hs]
    cases yes <;> simp [acceptedAmong, hs, rest, bind, Except.bind, kept]

theorem accepts_of_acceptedAmong {d : Device β} {t : Symbol} {sites r : List Site}
    (run : acceptedAmong d t sites = .ok r) : ∀ s ∈ sites, ∃ yes, d.accepts t s = .ok yes := by
  induction sites generalizing r with
  | nil => simp
  | cons s sites ih =>
    cases hs : d.accepts t s with
    | error e => simp [acceptedAmong, hs, bind, Except.bind] at run
    | ok yes =>
      cases hr : acceptedAmong d t sites with
      | error e => simp [acceptedAmong, hs, hr, bind, Except.bind] at run
      | ok rest => exact List.forall_mem_cons.2 ⟨⟨yes, hs⟩, ih hr⟩

/-! ## The indices of a layout -/

/-- Whatever is bound, the types and the partition are those of the device. -/
theorem ReachedOn.indices {d : Device β} {l : Layout β} (h : l.ReachedOn d) :
    ∃ names, d.types names = .ok l.types ∧ Partition.ofDevice d l.types = .ok l.partition := by
  induction h with
  | fresh h =>
    obtain ⟨types, partition, collect, build, rfl⟩ := exists_of_ofDevice h
    exact ⟨_, collect, build⟩
  | @step l _ m o ih =>
    obtain ⟨l', changes, e⟩ := Flow.state_eq_moved (⟨l, m⟩ : Flow β) o
    rw [e]
    exact ih
  | drain _ ih => exact ih

theorem ReachedOn.exists_siteType {d : Device β} {l : Layout β} (h : l.ReachedOn d) {s : Site}
    (hs : s ∈ d.sites) : ∃ own, d.siteType s = .ok own := by
  obtain ⟨names, collect, _⟩ := h.indices
  obtain ⟨types, answers, _⟩ := bind_eq_ok_iff_exists.mp collect
  exact exists_of_mapM answers hs

/-! ## Legal sites -/

variable {d : Device β} {l : Layout β} {t : Symbol} {b : β}

/-- The sites that the device puts into the type's bucket are searched, and no others. -/
theorem ReachedOn.legalSites_eq (h : l.ReachedOn d) (bucket : d.bucketOfType t = .ok b) :
    l.legalSites t = acceptedAmong d t (d.sites.filter (d.puts b)) := by
  obtain ⟨_, _, build⟩ := h.indices
  rw [legalSites, h.device_eq, bucket, ← Partition.getD_ofDevice build b]
  rfl

theorem ReachedOn.legalSites_accepting (h : l.ReachedOn d) (bucket : d.bucketOfType t = .ok b)
    (inside : d.AcceptsInBuckets)
    (answers : ∀ s ∈ d.sites, d.bucketOfSite s = .ok b → ∃ yes, d.accepts t s = .ok yes) :
    l.legalSites t = .ok (d.accepting t) := by
  have searched : ∀ s ∈ d.sites.filter (d.puts b), ∃ yes, d.accepts t s = .ok yes := by
    intro s hs
    obtain ⟨mem, here⟩ := List.mem_filter.1 hs
    exact answers s mem (Device.puts_iff.1 here)
  rw [h.legalSites_eq bucket, acceptedAmong_eq searched, List.filter_filter, Device.accepting]
  congr 1
  refine List.filter_congr fun s mem => ?_
  cases yes : d.takes t s with
  | false => rfl
  | true => exact Device.puts_iff.2 (inside t b bucket s mem (Device.takes_iff.1 yes))

theorem ReachedOn.legalSites_of_keepsPlacement (h : l.ReachedOn d)
    (bucket : d.bucketOfType t = .ok b) (keeps : d.KeepsPlacement) :
    l.legalSites t = .ok (d.accepting t) ∧
      acceptedAmong d t d.sites = .ok (d.accepting t) := by
  have answers : ∀ s ∈ d.sites, ∃ yes, d.accepts t s = .ok yes := by
    intro s hs
    obtain ⟨own, type⟩ := h.exists_siteType hs
    exact ⟨_, keeps.accepts_of_siteType type t⟩
  exact ⟨h.legalSites_accepting bucket keeps.acceptsInBuckets fun s hs _ => answers s hs,
    acceptedAmong_eq answers⟩

/-- The legal sites of a type are all sites of the device that it accepts for the type, in the order
of the device and as often as the device lists them. This holds for every type that has a bucket, on
devices that accept no site of another bucket: whenever a scan of all sites answers, and even if
only the sites of the bucket can be asked. It holds on all devices that keep the default answers
about single sites; and on a chip for every type, so that none is refused. -/
theorem legalSites_eq_scan :
    (∀ {β : Type} [BucketKey β] (d : Device β) (l : Layout β), l.ReachedOn d →
      ∀ t b, d.bucketOfType t = .ok b →
        (d.AcceptsInBuckets →
          (∀ r, acceptedAmong d t d.sites = .ok r →
            r = d.accepting t ∧ l.legalSites t = .ok r) ∧
          ((∀ s ∈ d.sites, d.bucketOfSite s = .ok b → ∃ yes, d.accepts t s = .ok yes) →
            l.legalSites t = .ok (d.accepting t))) ∧
        (d.KeepsPlacement → l.legalSites t = .ok (d.accepting t) ∧
          acceptedAmong d t d.sites = .ok (d.accepting t))) ∧
    ∀ (c : Chip) (l : Layout Symbol), l.ReachedOn c.device →
      ∀ t, l.legalSites t = .ok (c.device.accepting t) ∧
        acceptedAmong c.device t c.device.sites = .ok (c.device.accepting t) := by
  refine ⟨fun d l h t b bucket => ⟨fun inside => ⟨fun r scan => ?_, ?_⟩, ?_⟩, fun c l h t => ?_⟩
  · have answers := accepts_of_acceptedAmong scan
    cases scan.symm.trans (acceptedAmong_eq answers)
    exact ⟨rfl, h.legalSites_accepting bucket inside fun s hs _ => answers s hs⟩
  · exact fun answers => h.legalSites_accepting bucket inside answers
  · exact fun keeps => h.legalSites_of_keepsPlacement bucket keeps
  · exact h.legalSites_of_keepsPlacement rfl c.keepsPlacement

/-! ## A small device -/

/-- A slice that is listed twice, takes LUTs and FFs too and has a bucket with them, and an IO site
in between. -/
def slices : Device Symbol :=
  (⟨"f", "slices", [(⟨0⟩, ⟨0⟩), (⟨1⟩, ⟨3⟩), (⟨0⟩, ⟨0⟩)], [], ∅⟩ : Listing).sharedDevice
    ⟨[(⟨0⟩, ⟨1⟩), (⟨0⟩, ⟨2⟩)], [(⟨1⟩, ⟨0⟩), (⟨2⟩, ⟨0⟩)], []⟩

def slicesNames : Interner := ⟨["SLICE", "LUT", "FF", "IOB"], by decide⟩

theorem slices_acceptsInBuckets : slices.AcceptsInBuckets := by
  intro t b bucket s hs yes
  have accepted {own : Symbol} (type : slices.siteType s = .ok own) :
      own = t ∨ own = ⟨0⟩ ∧ t = ⟨1⟩ ∨ own = ⟨0⟩ ∧ t = ⟨2⟩ := by
    have answer : slices.accepts t s =
        .ok (own = t || [(⟨0⟩, ⟨1⟩), (⟨0⟩, ⟨2⟩)].contains (own, t)) := by
      change (slices.siteType s >>= _) = _
      rw [type]
      rfl
    simpa [answer] using yes
  have slice : slices.siteType s = .ok ⟨0⟩ → slices.bucketOfType t = .ok ⟨0⟩ := by
    intro type
    rcases accepted type with rfl | ⟨_, rfl⟩ | ⟨_, rfl⟩ <;> rfl
  fin_cases hs
  · exact (slice rfl).symm.trans bucket
  · have io : slices.siteType ⟨1⟩ = .ok ⟨3⟩ := rfl
    rcases accepted io with rfl | ⟨other, _⟩ | ⟨other, _⟩
    · exact bucket
    · cases other
    · cases other
  · exact (slice rfl).symm.trans bucket

def slicesLayout : Layout Symbol :=
  let sites := ((∅ : SortedMap Symbol (List Site)).insert ⟨0⟩ [⟨0⟩, ⟨0⟩]).insert ⟨3⟩ [⟨1⟩]
  ⟨slices, [⟨3⟩, ⟨0⟩], ⟨sites⟩, ∅, none⟩

/-- On the slice an FF may be placed, and on the sample chip a LUT. -/
theorem legalSites_slices :
    slicesLayout.ReachedOn slices ∧ slices.AcceptsInBuckets ∧
    slicesLayout.legalSites ⟨2⟩ = .ok [⟨0⟩, ⟨0⟩] ∧
    Flow.sample.layout.ReachedOn Chip.sample.chip.device ∧
    Flow.sample.layout.legalSites ⟨1⟩ = .ok [⟨0⟩] := by
  have fresh : slicesLayout.ReachedOn slices := .fresh (rfl : ofDevice slices slicesNames false = _)
  have chip : Flow.sample.layout.ReachedOn Chip.sample.chip.device := .fresh Flow.ofDevice_sample
  have answers : ∀ s ∈ slices.sites, slices.bucketOfSite s = .ok ⟨0⟩ →
      ∃ yes, slices.accepts ⟨2⟩ s = .ok yes := by
    intro s hs _
    fin_cases hs <;> exact ⟨_, rfl⟩
  exact ⟨fresh, slices_acceptsInBuckets,
    ((legalSites_eq_scan.1 slices slicesLayout fresh ⟨2⟩ ⟨0⟩ rfl).1
      slices_acceptsInBuckets).2 answers,
    chip, (legalSites_eq_scan.2 Chip.sample.chip Flow.sample.layout chip ⟨1⟩).1⟩

end Layout

end Fabric
