import Fabric.Proofs.Chip
import Fabric.Proofs.Effect
/-!
Reachable states. A flow starts with nothing bound and an empty netlist and goes on through refused
operations, on the device that it started with; a layout may also be used with a different netlist
in each operation. Neither ever binds the null handle.
-/

namespace Fabric

variable {β : Type} [BucketKey β]

/-- The flows on a device that operations on one netlist lead to. -/
inductive Flow.Reachable (d : Device β) : Flow β → Prop
  | fresh {names watched l} (h : Layout.ofDevice d names watched = .ok l) : Reachable d ⟨l, ∅⟩
  | step {f} (h : Reachable d f) (o : Operation) : Reachable d (f.perform o).state

/-- The layouts that operations lead to, each with a netlist of its own. In between the log may be
drained and the device may be told to change. -/
inductive Layout.Reached : Layout β → Prop
  | fresh {d names watched l} (h : Layout.ofDevice d names watched = .ok l) : Reached l
  | step {l} (h : Reached l) (m : Netlist) (o : Operation) :
      Reached ((⟨l, m⟩ : Flow β).perform o).state.layout
  | drain {l} (h : Reached l) : Reached l.drainLog.2
  | update {l} (h : Reached l) (change : Device β → Device β) : Reached (l.updateDevice change)

namespace Flow

theorem run_append (f : Flow β) (os os' : List Operation) :
    f.run (os ++ os') = (f.run os).run os' := by
  induction os generalizing f with
  | nil => rfl
  | cons o os ih => exact ih _

theorem answers_append (f : Flow β) (os os' : List Operation) :
    f.answers (os ++ os') = f.answers os ++ (f.run os).answers os' := by
  induction os generalizing f with
  | nil => rfl
  | cons o os ih => exact congrArg _ (ih _)

theorem Reachable.run {d : Device β} {f : Flow β} (h : Reachable d f) (os : List Operation) :
    Reachable d (f.run os) := by
  induction os generalizing f with
  | nil => exact h
  | cons o os ih => exact ih (h.step o)

/-- The reachable flows are the ends of runs. -/
theorem reachable_iff {d : Device β} {f : Flow β} :
    Reachable d f ↔ ∃ names watched l os, Layout.ofDevice d names watched = .ok l ∧
      f = (⟨l, ∅⟩ : Flow β).run os := by
  constructor
  · intro h
    induction h with
    | fresh h => exact ⟨_, _, _, [], h, rfl⟩
    | step _ o ih =>
      obtain ⟨names, watched, l, os, hl, rfl⟩ := ih
      exact ⟨names, watched, l, os ++ [o], hl, by rw [run_append]; rfl⟩
  · rintro ⟨names, watched, l, os, hl, rfl⟩
    exact (Reachable.fresh hl).run os

theorem Reachable.reached {d : Device β} {f : Flow β} (h : Reachable d f) : f.layout.Reached := by
  induction h with
  | fresh h => exact .fresh h
  | step _ o ih => exact ih.step _ o

/-- Every step changes at most the ledger and the log. -/
theorem state_eq_moved (f : Flow β) (o : Operation) :
    ∃ l changes, (f.perform o).state = f.moved l changes := by
  rcases perform_cases f o with ⟨reply, changes, l, he⟩ | ⟨l, ho⟩ | ⟨r, hr⟩
  · exact ⟨l, changes, by rw [perform_of_effect he]; rfl⟩
  · obtain ⟨r, hr⟩ := perform_of_orphan ho
    exact ⟨l, [], by rw [hr]; rfl⟩
  · exact ⟨f.ledger, [], by rw [hr, moved_ledger]; rfl⟩

theorem device_run (f : Flow β) (os : List Operation) :
    (f.run os).layout.device = f.layout.device := by
  induction os generalizing f with
  | nil => rfl
  | cons o os ih =>
    obtain ⟨l, changes, e⟩ := state_eq_moved f o
    have first := ih (f.moved l changes)
    rw [run, e, first, device_moved]

end Flow

/-- A fresh layout has the device's types and partition, and nothing is bound. -/
theorem Layout.exists_of_ofDevice {d : Device β} {names : Interner} {watched : Bool} {l : Layout β}
    (h : Layout.ofDevice d names watched = .ok l) :
    ∃ types partition, d.types names = .ok types ∧ Partition.ofDevice d types = .ok partition ∧
      l = ⟨d, types, partition, ∅, if watched then some [] else none⟩ := by
  unfold Layout.ofDevice at h
  cases ht : d.types names with
  | error r =>
    rw [ht] at h
    cases h
  | ok types =>
    rw [ht] at h
    cases hp : Partition.ofDevice d types with
    | error r =>
      simp only [bind, Except.bind, hp] at h
      cases h
    | ok partition =>
      simp only [bind, Except.bind, hp] at h
      cases h
      exact ⟨types, partition, rfl, hp, rfl⟩

theorem Layout.eq_of_ofDevice {d : Device β} {names : Interner} {watched : Bool} {l : Layout β}
    (h : Layout.ofDevice d names watched = .ok l) :
    l.device = d ∧ l.owners = ∅ ∧ l.log = if watched then some [] else none := by
  obtain ⟨types, partition, _, _, rfl⟩ := exists_of_ofDevice h
  exact ⟨rfl, rfl, rfl⟩

theorem Flow.Reachable.device_eq {d : Device β} {f : Flow β} (h : Reachable d f) :
    f.layout.device = d := by
  induction h with
  | fresh h => exact (Layout.eq_of_ofDevice h).1
  | @step f _ o ih =>
    obtain ⟨l, changes, e⟩ := state_eq_moved f o
    rw [e]
    exact ih

/-- What holds of the empty ledger and is kept by everything that operations do holds of the ledger
of every reachable flow. -/
theorem Flow.Reachable.invariant {d : Device β} {f : Flow β} {P : Ledger → Prop}
    (h : Reachable d f) (empty : P ⟨∅, ∅⟩)
    (effect : ∀ {l l' o reply changes}, P l → Effect d l o reply changes l' → P l')
    (orphan : ∀ {l l' o}, P l → Orphan d l o l' → P l') : P f.ledger := by
  induction h with
  | fresh h =>
    obtain ⟨_, ho, _⟩ := Layout.eq_of_ofDevice h
    rw [Flow.ledger, ho]
    exact empty
  | @step f hf o ih =>
    have hd := hf.device_eq
    rcases perform_cases f o with ⟨reply, changes, l, he⟩ | ⟨l, ho⟩ | ⟨r, hr⟩
    · rw [perform_of_effect he]
      exact effect ih (hd ▸ he)
    · obtain ⟨r, hr⟩ := perform_of_orphan ho
      rw [hr]
      exact orphan ih (hd ▸ ho)
    · rw [hr]
      exact ih

/-! ## Several netlists -/

/-- The layouts of one device that operations lead to, each with a netlist of its own. In between
the log may be drained. -/
inductive Layout.ReachedOn (d : Device β) : Layout β → Prop
  | fresh {names watched l} (h : Layout.ofDevice d names watched = .ok l) : ReachedOn d l
  | step {l} (h : ReachedOn d l) (m : Netlist) (o : Operation) :
      ReachedOn d ((⟨l, m⟩ : Flow β).perform o).state.layout
  | drain {l} (h : ReachedOn d l) : ReachedOn d l.drainLog.2

theorem Flow.Reachable.reachedOn {d : Device β} {f : Flow β} (h : Reachable d f) :
    f.layout.ReachedOn d := by
  induction h with
  | fresh h => exact .fresh h
  | step _ o ih => exact ih.step _ o

theorem Layout.ReachedOn.device_eq {d : Device β} {l : Layout β} (h : l.ReachedOn d) :
    l.device = d := by
  induction h with
  | fresh h => exact (Layout.eq_of_ofDevice h).1
  | @step l _ m o ih =>
    obtain ⟨l', changes, e⟩ := Flow.state_eq_moved (⟨l, m⟩ : Flow β) o
    rw [e]
    exact ih
  | drain _ ih => exact ih

/-- What holds when nothing is bound and is kept by everything that operations do holds of the
owners of every layout, whatever netlists it is used with. -/
theorem Layout.ReachedOn.invariant {d : Device β} {l : Layout β} {P : Owners → Prop}
    (h : l.ReachedOn d) (empty : P ∅)
    (effect : ∀ {l l' o reply changes}, P l.owners → Effect d l o reply changes l' → P l'.owners)
    (orphan : ∀ {l l' o}, P l.owners → Orphan d l o l' → P l'.owners) : P l.owners := by
  induction h with
  | fresh h =>
    rw [(Layout.eq_of_ofDevice h).2.1]
    exact empty
  | @step l hl m o ih =>
    have hd := hl.device_eq
    rcases Flow.perform_cases (⟨l, m⟩ : Flow β) o with
      ⟨reply, changes, l', he⟩ | ⟨l', ho⟩ | ⟨r, hr⟩
    · rw [Flow.perform_of_effect he]
      exact effect (l := ⟨l.owners, m⟩) ih (hd ▸ he)
    · obtain ⟨r, hr⟩ := Flow.perform_of_orphan ho
      rw [hr]
      exact orphan (l := ⟨l.owners, m⟩) ih (hd ▸ ho)
    · rw [hr]
      exact ih
  | drain _ ih => exact ih

/-! ## The netlist -/

theorem Effect.built {d : Device β} {l l' : Ledger} {o : Operation} {reply : Reply}
    {changes : List Change} (h : l.netlist.Built) (he : Effect d l o reply changes l') :
    l'.netlist.Built := by
  cases he with
  | addCell name type => exact h.addCell name type
  | addNet name => exact h.addNet name
  | bindSite inside can strength => exact h.setCell _ _
  | unbindSite can => exact h.setCell _ _
  | bindWire inside can strength => exact Ledger.netlist_take _ _ _ ▸ h.setNet _ _
  | unbindWire can => exact Ledger.netlist_release _ _ _ ▸ h.setNet _ _
  | bindPip target can strength => exact Ledger.netlist_take _ _ _ ▸ h.setNet _ _
  | unbindPip target can => exact Ledger.netlist_release _ _ _ ▸ h.setNet _ _

theorem Flow.Reachable.built {d : Device β} {f : Flow β} (h : Reachable d f) :
    f.netlist.Built := by
  refine h.invariant (P := fun l => l.netlist.Built) .empty (fun hm he => he.built hm) ?_
  intro l l' o hm ho
  cases ho <;> exact hm

/-! ## The null handle -/

/-- No null handle is bound. -/
structure Owners.NotNull (o : Owners) : Prop where
  site : ∀ s c, o.site? s = some c → s ≠ .null
  wire : ∀ w n, o.wire? w = some n → w ≠ .null
  pip : ∀ p n, o.pip? p = some n → p ≠ .null

namespace Owners.NotNull

variable {l : Ledger}

theorem empty : NotNull ∅ := ⟨nofun, nofun, nofun⟩

theorem place (h : l.owners.NotNull) {s : Site} (hs : s ≠ .null) (c : CellRef) (x : Cell)
    (strength : Strength) : (l.place s c x strength).owners.NotNull := by
  refine ⟨?_, h.wire, h.pip⟩
  intro s' c' hc
  rw [Ledger.site?_place] at hc
  split at hc
  next e => exact e ▸ hs
  · exact h.site s' c' hc

theorem freeSite (h : l.owners.NotNull) (s : Site) : (l.freeSite s).owners.NotNull := by
  refine ⟨?_, h.wire, h.pip⟩
  intro s' c' hc
  rw [Ledger.site?_freeSite] at hc
  split at hc
  · cases hc
  · exact h.site s' c' hc

theorem freeWire (h : l.owners.NotNull) (w : Wire) : (l.freeWire w).owners.NotNull := by
  refine ⟨h.site, ?_, h.pip⟩
  intro w' n' hn
  rw [Ledger.wire?_freeWire] at hn
  split at hn
  · cases hn
  · exact h.wire w' n' hn

theorem take (h : l.owners.NotNull) (n : NetRef) (x : Net) {w : Wire} {u : WireUse}
    (hw : w ≠ .null) (hp : ∀ p, u.driver = some p → p ≠ .null) :
    (l.take n x w u).owners.NotNull := by
  refine ⟨?_, ?_, ?_⟩
  · intro s c hc
    rw [Ledger.site?_take] at hc
    exact h.site s c hc
  · intro w' n' hn
    rw [Ledger.wire?_take] at hn
    split at hn
    next e => exact e ▸ hw
    · exact h.wire w' n' hn
  · intro p n' hn
    rw [Ledger.pip?_take] at hn
    split at hn
    next e => exact hp p e
    · exact h.pip p n' hn

theorem release (h : l.owners.NotNull) (n : NetRef) (x : Net) (w : Wire) (driver : Option Pip) :
    (l.release n x w driver).owners.NotNull := by
  refine ⟨?_, ?_, ?_⟩
  · intro s c hc
    rw [Ledger.site?_release] at hc
    exact h.site s c hc
  · intro w' n' hn
    apply (h.freeWire w).wire w' n'
    rw [Ledger.wire?_release] at hn
    rw [Ledger.wire?_freeWire]
    exact hn
  · intro p n' hn
    rw [Ledger.pip?_release] at hn
    split at hn
    · cases hn
    · exact h.pip p n' hn

theorem effect {d : Device β} {l' : Ledger} {o : Operation} {reply : Reply} {changes : List Change}
    (h : l.owners.NotNull) (he : Effect d l o reply changes l') : l'.owners.NotNull := by
  cases he with
  | addCell name type => exact h
  | addNet name => exact h
  | bindSite inside can strength => exact h.place can.notNull _ _ _
  | unbindSite can => exact h.freeSite _
  | bindWire inside can strength => exact h.take _ _ can.notNull nofun
  | unbindWire can => exact h.release _ _ _ _
  | bindPip target can strength =>
    exact h.take _ _ can.target_notNull fun q hq => Option.some.inj hq ▸ can.notNull
  | unbindPip target can => exact h.release _ _ _ _

theorem orphan {d : Device β} {l' : Ledger} {o : Operation} (h : l.owners.NotNull)
    (ho : Orphan d l o l') : l'.owners.NotNull := by
  cases ho with
  | unbindSite notNull owned gone => exact h.freeSite _
  | unbindPip notNull target owned target_owned gone => exact h.freeWire _

end Owners.NotNull

theorem Layout.Reached.notNull {l : Layout β} (h : l.Reached) : l.owners.NotNull := by
  induction h with
  | fresh h =>
    rw [(Layout.eq_of_ofDevice h).2.1]
    exact .empty
  | @step l _ m o ih =>
    rcases Flow.perform_cases (⟨l, m⟩ : Flow β) o with
      ⟨reply, changes, l', he⟩ | ⟨l', ho⟩ | ⟨r, hr⟩
    · rw [Flow.perform_of_effect he]
      exact ih.effect (l := ⟨l.owners, m⟩) he
    · obtain ⟨r, hr⟩ := Flow.perform_of_orphan ho
      rw [hr]
      exact ih.orphan (l := ⟨l.owners, m⟩) ho
    · rw [hr]
      exact ih
  | drain _ ih => exact ih
  | update _ change ih => exact ih

/-! ## A small flow -/

namespace Flow

/-- The watched flow of the sample chip, with nothing bound. -/
def sample : Flow Symbol :=
  ⟨⟨Chip.sample.chip.device, [⟨1⟩], ⟨(∅ : SortedMap Symbol (List Site)).insert ⟨1⟩ [⟨0⟩]⟩, ∅,
    some []⟩, ∅⟩

theorem ofDevice_sample :
    Layout.ofDevice Chip.sample.chip.device Chip.sample.names true = .ok sample.layout := rfl

theorem sample_reachable (os : List Operation) :
    Reachable Chip.sample.chip.device (sample.run os) := by
  have h : Reachable Chip.sample.chip.device sample := .fresh ofDevice_sample
  exact h.run os

end Flow

end Fabric
