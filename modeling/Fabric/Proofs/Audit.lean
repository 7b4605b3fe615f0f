import Fabric.Proofs.Agreement
import Fabric.Proofs.Atomicity
/-!
What audits answer. An audit asks the netlist for the owner of every bound site and wire. If it has
them all, an audit decides whether owners, netlist and device agree (`audit_decides`). An owner that
is missing never passes, but it is not a discrepancy either: the look-up is refused, and the audit
with it. Of several faults the order of the walk decides which one is met first, so there is one
answer for some order and another for every order (`audit_refused_iff`).
-/

namespace Fabric

variable {β : Type} [BucketKey β]

/-! ## Failures of checks -/

/-- A netlist that handles reach to its end has nothing behind it. -/
theorem Netlist.TailBlank.of_length_le {m : Netlist} (cells : m.cells.length ≤ UInt32.size)
    (nets : m.nets.length ≤ UInt32.size) : m.TailBlank := by
  constructor
  · intro i x hx hi
    have lt := (List.getElem?_eq_some_iff.mp hx).1
    omega
  · intro i x hx hi
    have lt := (List.getElem?_eq_some_iff.mp hx).1
    omega

/-- A list fails at an element that comes after elements that pass. -/
theorem checkAll_eq_error_iff {α ε : Type} {check : α → Except ε Unit} {l : List α} {e : ε} :
    checkAll check l = .error e ↔ ∃ before a after, l = before ++ a :: after ∧
      (∀ b ∈ before, check b = .ok ()) ∧ check a = .error e := by
  induction l with
  | nil => simp [checkAll]
  | cons a l ih =>
    simp only [checkAll, List.cons_eq_append_iff]
    cases ha : check a with
    | error e' =>
      constructor
      · intro h
        exact ⟨[], a, l, .inl ⟨rfl, rfl⟩, List.forall_mem_nil _, ha.trans h⟩
      · rintro ⟨before, b, after, ⟨rfl, hl⟩ | ⟨tail, rfl, _⟩, passes, fails⟩
        · cases hl
          exact ha.symm.trans fails
        · cases ha.symm.trans (passes a List.mem_cons_self)
    | ok u =>
      simp only [ih]
      constructor
      · rintro ⟨before, b, after, rfl, passes, fails⟩
        exact ⟨a :: before, b, after, .inr ⟨before, rfl, rfl⟩,
          List.forall_mem_cons.mpr ⟨ha, passes⟩, fails⟩
      · rintro ⟨before, b, after, ⟨rfl, hl⟩ | ⟨tail, rfl, rfl⟩, passes, fails⟩
        · cases hl
          cases ha.symm.trans fails
        · exact ⟨tail, b, after, rfl, (List.forall_mem_cons.mp passes).2, fails⟩

theorem checkAll_ne_error {α ε : Type} {check : α → Except ε Unit} {l : List α} {e : ε}
    (h : ∀ a ∈ l, check a ≠ .error e) : checkAll check l ≠ .error e := by
  intro he
  obtain ⟨before, a, after, rfl, _, fails⟩ := checkAll_eq_error_iff.mp he
  exact h a (List.mem_append_right before List.mem_cons_self) fails

/-- Some order fails with an error exactly if some element does. -/
theorem exists_perm_checkAll_iff {α ε : Type} {check : α → Except ε Unit} {l : List α} {e : ε} :
    (∃ walk : List α, walk.Perm l ∧ checkAll check walk = .error e) ↔
      ∃ a ∈ l, check a = .error e := by
  constructor
  · rintro ⟨walk, perm, fails⟩
    obtain ⟨before, a, after, rfl, _, fails⟩ := checkAll_eq_error_iff.mp fails
    exact ⟨a, perm.mem_iff.mp (by simp), fails⟩
  · rintro ⟨a, mem, fails⟩
    obtain ⟨before, after, rfl⟩ := List.append_of_mem mem
    refine ⟨a :: (before ++ after), List.perm_middle.symm, ?_⟩
    rw [checkAll, fails]

/-- Every order fails with an error of a kind exactly if some element fails, and all errors are of
this kind. -/
theorem forall_perm_checkAll_iff {α ε : Type} {check : α → Except ε Unit} {l : List α}
    {kind : ε → Prop} :
    (∀ walk : List α, walk.Perm l → ∃ e, kind e ∧ checkAll check walk = .error e) ↔
      (∃ a ∈ l, check a ≠ .ok ()) ∧ ∀ a ∈ l, ∀ e, check a = .error e → kind e := by
  constructor
  · intro every
    constructor
    · obtain ⟨e, _, fails⟩ := every l (.refl l)
      obtain ⟨a, mem, fails⟩ := exists_perm_checkAll_iff.mp ⟨l, .refl l, fails⟩
      exact ⟨a, mem, by rw [fails]; nofun⟩
    · intro a mem e fails
      obtain ⟨walk, perm, first⟩ := exists_perm_checkAll_iff.mpr ⟨a, mem, fails⟩
      obtain ⟨e', of_kind, fails'⟩ := every walk perm
      cases first.symm.trans fails'
      exact of_kind
  · rintro ⟨⟨a, mem, faulty⟩, of_kind⟩ walk perm
    cases verdict : checkAll check walk with
    | ok u => exact absurd (checkAll_eq_ok_iff.mp verdict a (perm.mem_iff.mpr mem)) faulty
    | error e =>
      obtain ⟨b, mem, fails⟩ := exists_perm_checkAll_iff.mp ⟨walk, perm, verdict⟩
      exact ⟨e, of_kind b mem e fails, rfl⟩

/-- The netlist has the owners of all bound sites and wires. -/
structure Owners.Known (o : Owners) (m : Netlist) : Prop where
  cell : ∀ s c, o.site? s = some c → ∃ x, m.cell? c = some x
  net : ∀ w n, o.wire? w = some n → ∃ x, m.net? n = some x

theorem Owners.known_iff {o : Owners} {m : Netlist} : o.Known m ↔
    (∀ e ∈ o.ofSite.entries, (m.cell? e.2).isSome = true) ∧
      ∀ e ∈ o.ofWire.entries, (m.net? e.2).isSome = true := by
  simp only [Option.isSome_iff_exists]
  constructor
  · intro h
    exact ⟨fun e he => h.cell e.1 e.2 ((o.ofSite.mem_entries_iff e.1 e.2).mp he),
      fun e he => h.net e.1 e.2 ((o.ofWire.mem_entries_iff e.1 e.2).mp he)⟩
  · rintro ⟨cell, net⟩
    exact ⟨fun s c owned => cell (s, c) ((o.ofSite.mem_entries_iff s c).mpr owned),
      fun w n owned => net (w, n) ((o.ofWire.mem_entries_iff w n).mpr owned)⟩

instance (o : Owners) (m : Netlist) : Decidable (o.Known m) :=
  decidable_of_iff _ Owners.known_iff.symm

/-! ## Refused audits of a ledger -/

namespace Ledger

variable {l : Ledger} {r : Refusal}

theorem auditSite_eq_refused_iff {s : Site} {c : CellRef} :
    l.auditSite (s, c) = .error (.refused r) ↔
      l.netlist.cell? c = none ∧ r = .outOfRange l.netlist.cells.length c.index := by
  unfold auditSite
  cases hx : l.netlist.cell? c with
  | none => simp [Netlist.cell, hx, eq_comm]
  | some x =>
    simp only [Netlist.cell, hx]
    split <;> simp

theorem auditWire_eq_refused_iff {w : Wire} {n : NetRef} :
    l.auditWire (w, n) = .error (.refused r) ↔
      l.netlist.net? n = none ∧ r = .outOfRange l.netlist.nets.length n.index := by
  unfold auditWire
  cases hx : l.netlist.net? n with
  | none => simp [Netlist.net, hx, eq_comm]
  | some x =>
    simp only [Netlist.net, hx]
    split <;> simp

theorem auditCell_ne_refused (x : Cell) : l.auditCell x ≠ .error (.refused r) := by
  unfold auditCell
  split
  · simp
  · split <;> simp

theorem auditUse_ne_refused (n : NetRef) (e : Wire × WireUse) :
    l.auditUse n e ≠ .error (.refused r) := by
  unfold auditUse
  split
  · simp
  · split
    · simp
    · split <;> simp

/-- Sites and cells agree, in both directions. -/
def SitesAgree (l : Ledger) : Prop :=
  ∀ s c, l.owners.site? s = some c ↔ l.netlist.siteOf? c = some s

/-- The audit of a ledger is refused at a site, or at a wire once sites and cells agree. -/
theorem auditAlong_eq_refused_iff (tail : l.netlist.TailBlank) (o : l.owners.Walk) :
    l.auditAlong o = .error (.refused r) ↔
      checkAll l.auditSite o.sites = .error (.refused r) ∨
        l.SitesAgree ∧ checkAll l.auditWire o.wires = .error (.refused r) := by
  have cells : checkAll l.auditCell l.netlist.cells ≠ .error (.refused r) :=
    checkAll_ne_error fun x _ => auditCell_ne_refused x
  have nets : checkAll (l.auditNet o) l.netlist.nets ≠ .error (.refused r) :=
    checkAll_ne_error fun x _ => checkAll_ne_error fun u _ => auditUse_ne_refused x.id u
  simp only [auditAlong, bind_eq_error_iff, cells, nets, false_or, and_false, or_false,
    checkAll_walk_iff o.sites_perm, auditSite_eq_ok_iff, checkCells_eq_ok_iff tail]
  refine or_congr_right ?_
  rw [← and_assoc]
  refine and_congr_left fun _ => ?_
  exact ⟨fun h s c => ⟨h.1 s c, h.2 c s⟩, fun h => ⟨fun s c => (h s c).mp, fun c s => (h s c).mpr⟩⟩

theorem exists_auditSite_refused_iff :
    (∃ e ∈ l.owners.ofSite.entries, l.auditSite e = .error (.refused r)) ↔
      ∃ s c, l.owners.site? s = some c ∧ l.netlist.cell? c = none ∧
        r = .outOfRange l.netlist.cells.length c.index := by
  simp only [Prod.exists, SortedMap.mem_entries_iff, auditSite_eq_refused_iff, Owners.site?]

theorem exists_auditWire_refused_iff :
    (∃ e ∈ l.owners.ofWire.entries, l.auditWire e = .error (.refused r)) ↔
      ∃ w n, l.owners.wire? w = some n ∧ l.netlist.net? n = none ∧
        r = .outOfRange l.netlist.nets.length n.index := by
  simp only [Prod.exists, SortedMap.mem_entries_iff, auditWire_eq_refused_iff, Owners.wire?]

/-- In some order the audit of a ledger is refused if the owner of some site is missing, or, sites
and cells agreeing, that of some wire. -/
theorem exists_auditAlong_refused_iff (tail : l.netlist.TailBlank) :
    (∃ o, l.auditAlong o = .error (.refused r)) ↔
      (∃ s c, l.owners.site? s = some c ∧ l.netlist.cell? c = none ∧
        r = .outOfRange l.netlist.cells.length c.index) ∨
      l.SitesAgree ∧ ∃ w n, l.owners.wire? w = some n ∧ l.netlist.net? n = none ∧
        r = .outOfRange l.netlist.nets.length n.index := by
  simp only [auditAlong_eq_refused_iff tail, ← exists_auditSite_refused_iff,
    ← exists_auditWire_refused_iff, ← exists_perm_checkAll_iff]
  constructor
  · rintro ⟨o, sites | ⟨agree, wires⟩⟩
    · exact .inl ⟨o.sites, o.sites_perm, sites⟩
    · exact .inr ⟨agree, o.wires, o.wires_perm, wires⟩
  · rintro (⟨sites, sites_perm, refused⟩ | ⟨agree, wires, wires_perm, refused⟩)
    · exact ⟨{ l.owners.ascending with sites, sites_perm }, .inl refused⟩
    · exact ⟨{ l.owners.ascending with wires, wires_perm }, .inr ⟨agree, refused⟩⟩

/-- Some bound site is not where its owner is, and of all these sites the owner is missing. -/
structure SitesOrphaned (l : Ledger) : Prop where
  disagree : ∃ s c, l.owners.site? s = some c ∧ l.netlist.siteOf? c ≠ some s
  missing : ∀ s c, l.owners.site? s = some c → l.netlist.siteOf? c ≠ some s →
    l.netlist.cell? c = none

/-- Some bound wire is not listed by its owner, and of all these wires the owner is missing. -/
structure WiresOrphaned (l : Ledger) : Prop where
  disagree : ∃ w n, l.owners.wire? w = some n ∧ l.netlist.use? n w = none
  missing : ∀ w n, l.owners.wire? w = some n → l.netlist.use? n w = none → l.netlist.net? n = none

/-- A site is audited without a discrepancy if its owner is there and names it, or is missing. -/
theorem auditSite_not_found_iff {s : Site} {c : CellRef} :
    (∀ e, l.auditSite (s, c) = .error e → ∃ r, e = .refused r) ↔
      (l.netlist.siteOf? c ≠ some s → l.netlist.cell? c = none) := by
  unfold auditSite
  cases hx : l.netlist.cell? c with
  | none => simp [Netlist.cell, hx]
  | some x => by_cases hs : x.site = some s <;> simp [Netlist.cell, Netlist.siteOf?, hx, hs]

theorem auditWire_not_found_iff {w : Wire} {n : NetRef} :
    (∀ e, l.auditWire (w, n) = .error e → ∃ r, e = .refused r) ↔
      (l.netlist.use? n w = none → l.netlist.net? n = none) := by
  unfold auditWire
  cases hx : l.netlist.net? n with
  | none => simp [Netlist.net, hx]
  | some x =>
    cases hu : x.wires.get? w <;> simp [Netlist.net, Netlist.use?, hx, hu, SortedMap.contains]

theorem forall_auditSite_refused_iff :
    (∀ walk : List (Site × CellRef), walk.Perm l.owners.ofSite.entries →
      ∃ e, (∃ r, e = .refused r) ∧ checkAll l.auditSite walk = .error e) ↔ l.SitesOrphaned := by
  simp only [forall_perm_checkAll_iff, Prod.exists, Prod.forall, SortedMap.mem_entries_iff,
    auditSite_not_found_iff, Ne, auditSite_eq_ok_iff]
  exact ⟨fun h => ⟨h.1, h.2⟩, fun h => ⟨h.disagree, h.missing⟩⟩

theorem forall_auditWire_refused_iff :
    (∀ walk : List (Wire × NetRef), walk.Perm l.owners.ofWire.entries →
      ∃ e, (∃ r, e = .refused r) ∧ checkAll l.auditWire walk = .error e) ↔ l.WiresOrphaned := by
  simp only [forall_perm_checkAll_iff, Prod.exists, Prod.forall, SortedMap.mem_entries_iff,
    auditWire_not_found_iff, Ne, auditWire_eq_ok_iff, ← Option.ne_none_iff_exists',
    Classical.not_not]
  exact ⟨fun h => ⟨h.1, h.2⟩, fun h => ⟨h.disagree, h.missing⟩⟩

/-- In every order the audit of a ledger is refused if all faults at sites are missing owners, or,
sites and cells agreeing, all faults at wires. -/
theorem forall_auditAlong_refused_iff (tail : l.netlist.TailBlank) :
    (∀ o, ∃ r, l.auditAlong o = .error (.refused r)) ↔
      l.SitesOrphaned ∨ l.SitesAgree ∧ l.WiresOrphaned := by
  simp only [auditAlong_eq_refused_iff tail]
  by_cases agree : l.SitesAgree
  · -- No order finds a fault at a site, so the wires decide.
    have passes (o : l.owners.Walk) (r : Refusal) :
        checkAll l.auditSite o.sites ≠ .error (.refused r) := by
      have sites : checkAll l.auditSite o.sites = .ok () :=
        (checkAll_walk_iff o.sites_perm).mpr fun s c owned =>
          auditSite_eq_ok_iff.mpr ((agree s c).mp owned)
      rw [sites]
      nofun
    have orphaned : ¬ l.SitesOrphaned := fun ⟨⟨s, c, owned, astray⟩, _⟩ =>
      astray ((agree s c).mp owned)
    simp only [passes, agree, false_or, true_and, orphaned, ← forall_auditWire_refused_iff]
    constructor
    · intro h wires wires_perm
      obtain ⟨r, refused⟩ := h { l.owners.ascending with wires, wires_perm }
      exact ⟨_, ⟨r, rfl⟩, refused⟩
    · intro h o
      obtain ⟨_, ⟨r, rfl⟩, refused⟩ := h o.wires o.wires_perm
      exact ⟨r, refused⟩
  · simp only [agree, false_and, or_false, ← forall_auditSite_refused_iff]
    constructor
    · intro h sites sites_perm
      obtain ⟨r, refused⟩ := h { l.owners.ascending with sites, sites_perm }
      exact ⟨_, ⟨r, rfl⟩, refused⟩
    · intro h o
      obtain ⟨_, ⟨r, rfl⟩, refused⟩ := h o.sites o.sites_perm
      exact ⟨r, refused⟩

theorem auditAlong_ne_refused (tail : l.netlist.TailBlank) (known : l.owners.Known l.netlist)
    (o : l.owners.Walk) : l.auditAlong o ≠ .error (.refused r) := by
  intro refused
  rcases (exists_auditAlong_refused_iff tail).mp ⟨o, refused⟩ with
    ⟨s, c, owned, gone, _⟩ | ⟨_, w, n, owned, gone, _⟩
  · obtain ⟨x, hx⟩ := known.cell s c owned
    cases gone.symm.trans hx
  · obtain ⟨x, hx⟩ := known.net w n owned
    cases gone.symm.trans hx

/-- What passes has all owners of sites and wires. -/
theorem known_of_auditAlong (tail : l.netlist.TailBlank) {o : l.owners.Walk}
    (h : l.auditAlong o = .ok ()) : l.owners.Known l.netlist := by
  obtain ⟨site, wire, _⟩ := (auditAlong_eq_ok_iff tail o).mp h
  constructor
  · intro s c owned
    obtain ⟨x, hx, _⟩ := Netlist.siteOf?_eq_some.mp ((site s c).mp owned)
    exact ⟨x, hx⟩
  · intro w n owned
    obtain ⟨u, hu⟩ := (wire w n).mp owned
    obtain ⟨x, hx, _⟩ := Netlist.use?_eq_some.mp hu
    exact ⟨x, hx⟩

end Ledger

/-! ## Audits of a flow -/

/-- The device answers for the pips that are bound, since it did when they were. -/
theorem Layout.ReachedOn.exists_target {d : Device β} {l : Layout β} (h : l.ReachedOn d) :
    ∀ p n, l.owners.pip? p = some n → ∃ w, d.target p = .ok w := by
  refine h.invariant (P := fun o => ∀ p n, o.pip? p = some n → ∃ w, d.target p = .ok w) nofun ?_ ?_
  · intro l l' o reply changes ih he
    cases he with
    | addCell name type => exact ih
    | addNet name => exact ih
    | bindSite inside can strength => exact ih
    | unbindSite can => exact ih
    | bindWire inside can strength => exact ih
    | bindPip target can strength =>
      intro q n' hq
      rw [Ledger.pip?_take] at hq
      split at hq
      next e => exact Option.some.inj e ▸ ⟨_, target⟩
      · exact ih q n' hq
    | unbindWire can | unbindPip target can =>
      intro q n' hq
      rw [Ledger.pip?_release] at hq
      split at hq
      · cases hq
      · exact ih q n' hq
  · intro l l' o ih ho
    cases ho <;> exact ih

namespace Flow

variable {d : Device β} {l : Layout β} {m : Netlist}

theorem auditSiteInside_ne_refused (f : Flow β) (e : Site × CellRef) (r : Refusal) :
    f.auditSiteInside e ≠ .error (.refused r) := by
  unfold auditSiteInside
  split <;> simp

theorem auditWireInside_ne_refused (f : Flow β) (e : Wire × NetRef) (r : Refusal) :
    f.auditWireInside e ≠ .error (.refused r) := by
  unfold auditWireInside
  split <;> simp

/-- A pip is audited without a refusal once the owners of wires are known. -/
theorem auditPip_ne_refused {f : Flow β} (known : f.layout.owners.Known f.netlist) {p : Pip}
    {w : Wire} (target : f.layout.device.target p = .ok w) (n : NetRef) (r : Refusal) :
    f.auditPip (p, n) ≠ .error (.refused r) := by
  unfold auditPip
  rw [target]
  dsimp only
  split
  · simp
  next owned =>
    obtain ⟨x, hx⟩ := known.net w n (Decidable.of_not_not owned)
    simp only [Netlist.net, hx]
    split <;> simp

/-- Only the audit of the ledger can be refused. -/
theorem auditAlong_eq_refused_iff (h : l.ReachedOn d) (tail : m.TailBlank) (o : l.owners.Walk)
    {r : Refusal} : (⟨l, m⟩ : Flow β).auditAlong o = .error (.refused r) ↔
      (⟨l.owners, m⟩ : Ledger).auditAlong o = .error (.refused r) := by
  rw [auditAlong, bind_eq_error_iff]
  refine or_iff_left ?_
  rintro ⟨passes, refused⟩
  have known : l.owners.Known m := Ledger.known_of_auditAlong tail passes
  rcases bind_eq_error_iff.mp refused with sites | ⟨_, refused⟩
  · exact checkAll_ne_error (fun e _ => auditSiteInside_ne_refused _ e r) sites
  rcases bind_eq_error_iff.mp refused with wires | ⟨_, pips⟩
  · exact checkAll_ne_error (fun e _ => auditWireInside_ne_refused _ e r) wires
  · refine checkAll_ne_error (fun e he => ?_) pips
    have owned : l.owners.pip? e.1 = some e.2 :=
      (SortedMap.mem_entries_iff _ e.1 e.2).mp (o.pips_perm.mem_iff.mp he)
    obtain ⟨w, target⟩ := h.exists_target e.1 e.2 owned
    exact auditPip_ne_refused known (h.device_eq ▸ target) e.2 r

theorem auditAlong_ne_refused (h : l.ReachedOn d) (tail : m.TailBlank) (known : l.owners.Known m)
    (o : l.owners.Walk) (r : Refusal) :
    (⟨l, m⟩ : Flow β).auditAlong o ≠ .error (.refused r) := by
  rw [Ne, auditAlong_eq_refused_iff h tail]
  exact Ledger.auditAlong_ne_refused (l := ⟨l.owners, m⟩) tail known o

/-! ## Exclusive owners -/

namespace Agrees

variable {f : Flow β}

theorem site_inj (h : f.Agrees) {s s' : Site} {c : CellRef} (hs : f.layout.owners.site? s = some c)
    (hs' : f.layout.owners.site? s' = some c) : s = s' := by
  have placed := ((h.site s c).mp hs).symm.trans ((h.site s' c).mp hs')
  exact Option.some.inj placed

theorem net_inj (h : f.Agrees) {w : Wire} {n n' : NetRef} {u u' : WireUse}
    (hn : f.netlist.use? n w = some u) (hn' : f.netlist.use? n' w = some u') : n = n' := by
  have owned := ((h.wire w n).mpr ⟨u, hn⟩).symm.trans ((h.wire w n').mpr ⟨u', hn'⟩)
  exact Option.some.inj owned

theorem target_inj (h : f.Agrees) {p q : Pip} {n n' : NetRef} {w : Wire}
    (hp : f.layout.owners.pip? p = some n) (hq : f.layout.owners.pip? q = some n')
    (target : f.layout.device.target p = .ok w) (target' : f.layout.device.target q = .ok w) :
    p = q := by
  obtain ⟨v, hv, owned, driver⟩ := h.pip p n hp
  obtain ⟨v', hv', owned', driver'⟩ := h.pip q n' hq
  cases target.symm.trans hv
  cases target'.symm.trans hv'
  cases owned.symm.trans owned'
  exact Option.some.inj (driver.symm.trans driver')

end Agrees

/-- With a netlist that has all owners of sites and wires, an audit of a layout that operations led
to passes exactly when owners, netlist and device agree, and otherwise finds a discrepancy. What
passes gives no cell two sites, no wire two nets and no two bound pips one target. -/
theorem audit_decides (h : l.ReachedOn d) (cells : m.cells.length < UInt32.size)
    (nets : m.nets.length < UInt32.size) (known : l.owners.Known m) :
    ((⟨l, m⟩ : Flow β).audit = .ok () ↔ (⟨l, m⟩ : Flow β).Agrees) ∧
    (¬ (⟨l, m⟩ : Flow β).Agrees → ∃ e, (⟨l, m⟩ : Flow β).audit = .error (.found e)) ∧
    ((⟨l, m⟩ : Flow β).audit = .ok () →
      (∀ s s' c, l.owners.site? s = some c → l.owners.site? s' = some c → s = s') ∧
      (∀ w n n' u u', m.use? n w = some u → m.use? n' w = some u' → n = n') ∧
      ∀ p q n n' w, l.owners.pip? p = some n → l.owners.pip? q = some n' →
        d.target p = .ok w → d.target q = .ok w → p = q) := by
  have tail : m.TailBlank := .of_length_le (Nat.le_of_lt cells) (Nat.le_of_lt nets)
  have decides := audit_eq_ok_iff (f := (⟨l, m⟩ : Flow β)) tail
  refine ⟨decides, ?_, ?_⟩
  · intro disagree
    cases verdict : (⟨l, m⟩ : Flow β).audit with
    | ok u => exact absurd (decides.mp verdict) disagree
    | error failure =>
      cases failure with
      | refused r => exact absurd verdict (auditAlong_ne_refused h tail known _ r)
      | found e => exact ⟨e, rfl⟩
  · intro passes
    have agrees := decides.mp passes
    refine ⟨fun s s' c => agrees.site_inj, fun w n n' u u' => agrees.net_inj, ?_⟩
    intro p q n n' w hp hq target target'
    exact agrees.target_inj hp hq (h.device_eq.symm ▸ target) (h.device_eq.symm ▸ target')

/-- The sample chip with its cell placed and its pip bound, and a second net. -/
def occupied : Flow Symbol :=
  sample.run [.addCell ⟨0⟩ ⟨1⟩, .addNet ⟨2⟩, .addNet ⟨3⟩, .bindSite ⟨0⟩ ⟨0⟩ .weak,
    .bindPip ⟨0⟩ ⟨0⟩ .weak]

/-- The second net lists the wire of the first, too. -/
def listedTwice : Netlist :=
  occupied.netlist.setNet ⟨1⟩
    ⟨⟨1⟩, ⟨3⟩, (∅ : SortedMap Wire WireUse).insert ⟨1⟩ ⟨none, .weak⟩⟩

theorem audit_decides_sample :
    occupied.layout.ReachedOn Chip.sample.chip.device ∧ occupied.Agrees ∧
    occupied.layout.owners.Known listedTwice ∧
    ∃ e, (⟨occupied.layout, listedTwice⟩ : Flow Symbol).audit = .error (.found e) := by
  have h : occupied.layout.ReachedOn Chip.sample.chip.device := (sample_reachable _).reachedOn
  have cells : listedTwice.cells.length < UInt32.size := by decide
  have nets : listedTwice.nets.length < UInt32.size := by decide
  have known : occupied.layout.owners.Known listedTwice := by decide
  have passes := (audit_decides h cells nets (m := occupied.netlist) (by decide)).1
  obtain ⟨decides, finds, _⟩ := audit_decides h cells nets known
  refine ⟨h, passes.mp rfl, known, finds fun agrees => ?_⟩
  cases (decides.mpr agrees)

/-! ## Missing owners -/

/-- On every layout that operations on one device led to, and with every netlist: in whatever order,
an audit is refused exactly if the audit of the ledger is. In some order that is so if the owner of
some site is missing from the netlist, or, sites and cells agreeing, that of some wire; in every
order, if all that disagrees at sites, or then at wires, are missing owners. If all owners are
there, no order is refused; if the owner of a site or of a wire is not, none passes either audit,
and if that of a pip is not, none passes the audit of the flow. -/
theorem audit_refused_iff (h : l.ReachedOn d) (hm : m.Built) :
    (∀ (o : l.owners.Walk) r, (⟨l, m⟩ : Flow β).auditAlong o = .error (.refused r) ↔
      (⟨l.owners, m⟩ : Ledger).auditAlong o = .error (.refused r)) ∧
    (∀ r, (∃ o, (⟨l.owners, m⟩ : Ledger).auditAlong o = .error (.refused r)) ↔
      (∃ s c, l.owners.site? s = some c ∧ m.cell? c = none ∧
        r = .outOfRange m.cells.length c.index) ∨
      (⟨l.owners, m⟩ : Ledger).SitesAgree ∧ ∃ w n, l.owners.wire? w = some n ∧ m.net? n = none ∧
        r = .outOfRange m.nets.length n.index) ∧
    ((∀ o, ∃ r, (⟨l.owners, m⟩ : Ledger).auditAlong o = .error (.refused r)) ↔
      (⟨l.owners, m⟩ : Ledger).SitesOrphaned ∨
      (⟨l.owners, m⟩ : Ledger).SitesAgree ∧ (⟨l.owners, m⟩ : Ledger).WiresOrphaned) ∧
    (l.owners.Known m → ∀ (o : l.owners.Walk) r,
      (⟨l, m⟩ : Flow β).auditAlong o ≠ .error (.refused r) ∧
      (⟨l.owners, m⟩ : Ledger).auditAlong o ≠ .error (.refused r)) ∧
    (¬ l.owners.Known m → ∀ o : l.owners.Walk,
      (⟨l, m⟩ : Flow β).auditAlong o ≠ .ok () ∧ (⟨l.owners, m⟩ : Ledger).auditAlong o ≠ .ok ()) ∧
    ∀ p n, l.owners.pip? p = some n → m.net? n = none →
      ∀ o : l.owners.Walk, (⟨l, m⟩ : Flow β).auditAlong o ≠ .ok () := by
  have tail := hm.tail
  refine ⟨fun o r => auditAlong_eq_refused_iff h tail o,
    fun r => Ledger.exists_auditAlong_refused_iff (l := ⟨l.owners, m⟩) tail,
    Ledger.forall_auditAlong_refused_iff (l := ⟨l.owners, m⟩) tail, ?_, ?_, ?_⟩
  · intro known o r
    exact ⟨auditAlong_ne_refused h tail known o r,
      Ledger.auditAlong_ne_refused (l := ⟨l.owners, m⟩) tail known o⟩
  · intro missing o
    have ledger : (⟨l.owners, m⟩ : Ledger).auditAlong o ≠ .ok () := fun passes =>
      missing (Ledger.known_of_auditAlong (l := ⟨l.owners, m⟩) tail passes)
    exact ⟨fun passes => ledger (bind_eq_ok_iff.mp passes).1, ledger⟩
  · intro p n owned gone o passes
    obtain ⟨w, _, _, driver⟩ :=
      ((auditAlong_eq_ok_iff (f := ⟨l, m⟩) tail o).mp passes).pip p n owned
    obtain ⟨u, hu, _⟩ := Netlist.driver?_eq_some.mp driver
    obtain ⟨x, hx, _⟩ := Netlist.use?_eq_some.mp hu
    cases gone.symm.trans hx

/-- The netlist of the occupied chip, had it only the cell. -/
def cellOnly : Netlist :=
  ((∅ : Netlist).addCell ⟨0⟩ ⟨1⟩).2.setCell ⟨0⟩ ⟨⟨0⟩, ⟨0⟩, ⟨1⟩, some ⟨0⟩, .weak⟩

/-- The layout of the occupied chip with a netlist that has the cell but no net. -/
theorem audit_refused_occupied :
    occupied.layout.ReachedOn Chip.sample.chip.device ∧ cellOnly.Built ∧
    ∀ o, ∃ r, (⟨occupied.layout.owners, cellOnly⟩ : Ledger).auditAlong o = .error (.refused r) := by
  have h : occupied.layout.ReachedOn Chip.sample.chip.device := (sample_reachable _).reachedOn
  have hm : cellOnly.Built := (Netlist.Built.empty.addCell ⟨0⟩ ⟨1⟩).setCell _ _
  refine ⟨h, hm, (audit_refused_iff h hm).2.2.1.mpr (.inr ⟨?_, ⟨⟨1⟩, ⟨0⟩, rfl, rfl⟩, ?_⟩)⟩
  · exact ((Ledger.audit_eq_ok_iff (l := ⟨⟨occupied.layout.owners.ofSite, ∅, ∅⟩, cellOnly⟩)
      hm.tail).mp rfl).1
  · exact fun _ _ _ _ => rfl

/-- With the empty netlist an audit of a chip that holds a cell gives no verdict. -/
theorem audit_elsewhere :
    Chip.sample.chip.Built ∧ elsewhere.layout.ReachedOn Chip.sample.chip.device ∧
    elsewhere.netlist = ∅ ∧ elsewhere.layout.owners.site? ⟨0⟩ = some ⟨0⟩ ∧
    elsewhere.ledger.audit = .error (.refused (.outOfRange 0 0)) ∧
    elsewhere.audit = .error (.refused (.outOfRange 0 0)) :=
  ⟨Chip.sample_built, (sample_reachable _).reachedOn, rfl, rfl, rfl, rfl⟩

end Flow

end Fabric
