import Fabric.Proofs.Agreement
import Fabric.Proofs.Reachable
/-!
Consistency. As long as one netlist is used, owners and netlist say the same: what is bound can be
read off the cells and the nets, and the driver that a net records for a wire is a pip that drives
this wire. Every move keeps that, so it holds in every reachable flow (`Flow.Reachable.consistent`),
and no owner is ever missing from the netlist.
-/

namespace Fabric

variable {β : Type} [BucketKey β]

/-- The owners are those that one would enter for the sites of the cells and the wires of the
nets. -/
structure Ledger.Consistent (d : Device β) (l : Ledger) : Prop where
  site : ∀ s c, l.owners.site? s = some c ↔ l.netlist.siteOf? c = some s
  wire : ∀ w n, l.owners.wire? w = some n ↔ ∃ u, l.netlist.use? n w = some u
  pip : ∀ p n, l.owners.pip? p = some n ↔
    ∃ w, d.target p = .ok w ∧ l.netlist.driver? n w = some p
  driver : ∀ n w p, l.netlist.driver? n w = some p → d.target p = .ok w
  unplaced : ∀ x ∈ l.netlist.cells, x.site = none → x.strength = .none

namespace Ledger.Consistent

variable {d : Device β} {l : Ledger}

theorem empty : (⟨∅, ∅⟩ : Ledger).Consistent d where
  site s c := by
    constructor
    · rintro ⟨⟩
    · rintro ⟨⟩
  wire w n := by
    constructor
    · rintro ⟨⟩
    · rintro ⟨u, ⟨⟩⟩
  pip p n := by
    constructor
    · rintro ⟨⟩
    · rintro ⟨w, target, ⟨⟩⟩
  driver := nofun
  unplaced := nofun

theorem use?_eq_none (h : l.Consistent d) {w : Wire} {n : NetRef} (hw : l.owners.wire? w ≠ some n) :
    l.netlist.use? n w = none := by
  cases hu : l.netlist.use? n w with
  | none => rfl
  | some u => exact absurd ((h.wire w n).mpr ⟨u, hu⟩) hw

theorem unplaced_set {cells : List Cell} (h : ∀ x ∈ cells, x.site = none → x.strength = .none)
    (i : Nat) {x : Cell} (hx : x.site = none → x.strength = .none) :
    ∀ y ∈ cells.set i x, y.site = none → y.strength = .none := by
  intro y hy
  rcases List.mem_or_eq_of_mem_set hy with hy | rfl
  · exact h y hy
  · exact hx

theorem place (h : l.Consistent d) {s : Site} {c : CellRef} {x : Cell} (can : l.CanBindSite s c x)
    (strength : Strength) : (l.place s c x strength).Consistent d := by
  have free : ∀ c', l.netlist.siteOf? c' ≠ some s := by
    intro c' hc
    cases can.free.symm.trans ((h.site s c').mpr hc)
  have unplaced : l.netlist.siteOf? c = none := by
    simp [Netlist.siteOf?, can.cell, can.unplaced]
  refine ⟨?_, h.wire, h.pip, h.driver, unplaced_set h.unplaced _ fun e => by cases e⟩
  intro s' c'
  rw [site?_place, siteOf?_place l can.cell]
  by_cases hs : s' = s
  · subst hs
    by_cases hc : c' = c
    · simp [hc]
    · simp [hc, Ne.symm hc, free c']
  · by_cases hc : c' = c
    · subst hc
      simp [hs, Ne.symm hs, h.site s' c', unplaced]
    · simp [hs, hc, h.site s' c']

theorem vacate (h : l.Consistent d) {s : Site} {c : CellRef} {x : Cell}
    (can : l.CanUnbindSite s c x) : (l.vacate s c x).Consistent d := by
  have placed : l.netlist.siteOf? c = some s := (h.site s c).mp can.owned
  refine ⟨?_, h.wire, h.pip, h.driver, unplaced_set h.unplaced _ fun _ => rfl⟩
  intro s' c'
  rw [site?_vacate, siteOf?_vacate l can.cell]
  by_cases hs : s' = s
  · subst hs
    by_cases hc : c' = c
    · simp [hc]
    · have elsewhere : l.netlist.siteOf? c' ≠ some s' := by
        intro hc'
        cases can.owned.symm.trans ((h.site s' c').mpr hc')
        exact hc rfl
      simp [hc, elsewhere]
  · by_cases hc : c' = c
    · subst hc
      simp [hs, h.site s' c', placed, Ne.symm hs]
    · simp [hs, hc, h.site s' c']

/-- A net takes a wire that is free, or its own and not driven. A driver must be a free pip that
drives the wire. -/
theorem take (h : l.Consistent d) {w : Wire} {n : NetRef} {x : Net} {u : WireUse}
    (net : l.netlist.net? n = some x)
    (fits : ∀ m, l.owners.wire? w = some m → m = n ∧ x.driver? w = none)
    (driver : ∀ p, u.driver = some p → d.target p = .ok w ∧ l.owners.pip? p = none) :
    (l.take n x w u).Consistent d := by
  have undriven : ∀ n', l.netlist.driver? n' w = none := by
    intro n'
    by_cases hw : l.owners.wire? w = some n'
    · obtain ⟨rfl, hd⟩ := fits n' hw
      rw [Netlist.driver?_of_net? net, hd]
    · rw [Netlist.driver?, h.use?_eq_none hw]
      rfl
  refine ⟨?_, ?_, ?_, ?_, ?_⟩
  · intro s c
    rw [site?_take, siteOf?_take]
    exact h.site s c
  · intro w' n'
    rw [wire?_take, use?_take l net]
    by_cases hw : w' = w
    · subst hw
      by_cases hn : n' = n
      · simp [hn]
      · have unowned : l.owners.wire? w' ≠ some n' := by
          intro e
          exact hn (fits n' e).1
        simp [hn, Ne.symm hn, h.use?_eq_none unowned]
    · simp [hw, h.wire w' n']
  · intro p n'
    rw [pip?_take]
    simp only [driver?_take l net]
    by_cases hp : u.driver = some p
    · obtain ⟨target, free⟩ := driver p hp
      rw [if_pos hp]
      constructor
      · rintro ⟨⟩
        exact ⟨w, target, by simp [hp]⟩
      · rintro ⟨w', target', hd⟩
        cases target.symm.trans target'
        split at hd
        next e => rw [e.1]
        · rw [undriven n'] at hd
          cases hd
    · rw [if_neg hp, h.pip p n']
      constructor
      · rintro ⟨w', target, hd⟩
        refine ⟨w', target, ?_⟩
        split
        next e =>
          rw [e.2, undriven n'] at hd
          cases hd
        · exact hd
      · rintro ⟨w', target, hd⟩
        refine ⟨w', target, ?_⟩
        split at hd
        · exact absurd hd hp
        · exact hd
  · intro n' w' p hp
    rw [driver?_take l net] at hp
    split at hp
    next e => exact e.2 ▸ (driver p hp).1
    · exact h.driver n' w' p hp
  · rw [netlist_take]
    exact h.unplaced

/-- A net gives up a wire of its own together with the driver. -/
theorem release (h : l.Consistent d) {w : Wire} {n : NetRef} {x : Net}
    (net : l.netlist.net? n = some x) (owned : l.owners.wire? w = some n) :
    (l.release n x w (l.netlist.driver? n w)).Consistent d := by
  have only : ∀ n', n' ≠ n → l.netlist.use? n' w = none := by
    intro n' hn
    apply h.use?_eq_none
    rw [owned]
    exact fun e => hn (Option.some.inj e).symm
  refine ⟨?_, l.wire_iff_use_release h.wire net owned _, ?_, ?_, ?_⟩
  · intro s c
    rw [site?_release, siteOf?_release]
    exact h.site s c
  · intro p n'
    rw [pip?_release]
    simp only [driver?_release l net]
    by_cases hp : l.netlist.driver? n w = some p
    · rw [if_pos hp]
      constructor
      · rintro ⟨⟩
      · rintro ⟨w', target, hd⟩
        cases (h.driver n w p hp).symm.trans target
        split at hd
        · cases hd
        next e =>
          have hn : n' ≠ n := by
            intro hn
            exact e ⟨hn, rfl⟩
          rw [Netlist.driver?, only n' hn] at hd
          cases hd
    · rw [if_neg hp, h.pip p n']
      constructor
      · rintro ⟨w', target, hd⟩
        refine ⟨w', target, ?_⟩
        rw [if_neg]
        · exact hd
        · rintro ⟨rfl, rfl⟩
          exact hp hd
      · rintro ⟨w', target, hd⟩
        refine ⟨w', target, ?_⟩
        split at hd
        · cases hd
        · exact hd
  · intro n' w' p hp
    rw [driver?_release l net] at hp
    split at hp
    · cases hp
    · exact h.driver n' w' p hp
  · rw [netlist_release]
    exact h.unplaced

theorem driver?_of_pip? (h : l.Consistent d) {p : Pip} {w : Wire} {n : NetRef}
    (target : d.target p = .ok w) (owned : l.owners.pip? p = some n) :
    l.netlist.driver? n w = some p := by
  obtain ⟨w', target', hd⟩ := (h.pip p n).mp owned
  cases target.symm.trans target'
  exact hd

/-- A recorded driver drives its wire and is bound to the net that records it. -/
theorem recorded_bound (h : l.Consistent d) {w : Wire} {n : NetRef} {p : Pip}
    (hd : l.netlist.driver? n w = some p) : d.target p = .ok w ∧ l.owners.pip? p = some n := by
  have target := h.driver n w p hd
  exact ⟨target, (h.pip p n).mpr ⟨w, target, hd⟩⟩

theorem pip_iff_recorded (h : l.Consistent d) (p : Pip) (n : NetRef) :
    l.owners.pip? p = some n ↔ ∃ w, l.netlist.driver? n w = some p := by
  constructor
  · intro owned
    obtain ⟨w, _, hd⟩ := (h.pip p n).mp owned
    exact ⟨w, hd⟩
  · rintro ⟨w, hd⟩
    exact (h.recorded_bound hd).2

/-- The driver that a net has for a wire of its own drives this wire and is bound to the net. -/
theorem driver_bound (h : l.Consistent d) {w : Wire} {n : NetRef} {x : Net} {u : WireUse}
    (can : l.CanUnbindWire w n x u) {p : Pip} (hp : u.driver = some p) :
    d.target p = .ok w ∧ l.owners.pip? p = some n := by
  apply h.recorded_bound
  simp [Netlist.driver?, Netlist.use?_of_net? can.net, can.listed, hp]

/-- The netlist alone decides who owns what. -/
theorem ext {l' : Ledger} (h : l.Consistent d) (h' : l'.Consistent d)
    (same : l.netlist = l'.netlist) : l = l' := by
  have sites : l.owners.ofSite = l'.owners.ofSite := by
    apply SortedMap.ext
    intro s
    apply Option.ext
    intro c
    exact (h.site s c).trans (same ▸ (h'.site s c).symm)
  have wires : l.owners.ofWire = l'.owners.ofWire := by
    apply SortedMap.ext
    intro w
    apply Option.ext
    intro n
    exact (h.wire w n).trans (same ▸ (h'.wire w n).symm)
  have pips : l.owners.ofPip = l'.owners.ofPip := by
    apply SortedMap.ext
    intro p
    apply Option.ext
    intro n
    exact (h.pip p n).trans (same ▸ (h'.pip p n).symm)
  obtain ⟨⟨ofSite, ofWire, ofPip⟩, netlist⟩ := l
  obtain ⟨⟨ofSite', ofWire', ofPip'⟩, netlist'⟩ := l'
  cases sites
  cases wires
  cases pips
  cases same
  rfl

/-- One step: what an operation does keeps owners and netlist consistent. -/
theorem effect {l' : Ledger} {o : Operation} {reply : Reply} {changes : List Change}
    (h : l.Consistent d) (he : Effect d l o reply changes l') : l'.Consistent d := by
  cases he with
  | addCell name type =>
    refine ⟨?_, h.wire, h.pip, h.driver, ?_⟩
    · intro s c
      rw [Netlist.siteOf?_addCell]
      exact h.site s c
    · intro x hx
      rcases List.mem_append.mp hx with hx | hx
      · exact h.unplaced x hx
      · rw [List.mem_singleton.mp hx]
        exact fun _ => rfl
  | addNet name =>
    refine ⟨h.site, ?_, ?_, ?_, h.unplaced⟩
    · intro w n
      rw [Netlist.use?_addNet]
      exact h.wire w n
    · intro p n
      simp only [Netlist.driver?, Netlist.use?_addNet]
      exact h.pip p n
    · intro n w p
      simp only [Netlist.driver?, Netlist.use?_addNet]
      exact h.driver n w p
  | bindSite inside can strength => exact h.place can strength
  | unbindSite can => exact h.vacate can
  | bindWire inside can strength =>
    refine h.take can.net ?_ ?_
    · intro m hm
      cases can.free.symm.trans hm
    · rintro p ⟨⟩
  | @unbindWire w n x u can =>
    have hd : l.netlist.driver? n w = u.driver := by
      simp [Netlist.driver?, Netlist.use?_of_net? can.net, can.listed]
    exact hd ▸ h.release can.net can.owned
  | @bindPip p w n x target can strength =>
    refine h.take can.net can.fits ?_
    rintro q ⟨⟩
    exact ⟨target, can.free⟩
  | unbindPip target can =>
    exact h.driver?_of_pip? target can.owned ▸ h.release can.net can.target_owned

/-- No owner is missing. -/
theorem not_orphan (h : l.Consistent d) {o : Operation} {l' : Ledger} : ¬ Orphan d l o l' := by
  intro ho
  cases ho with
  | @unbindSite s c notNull owned gone =>
    have hs := (h.site s c).mp owned
    rw [Netlist.siteOf?, gone] at hs
    cases hs
  | @unbindPip p w n notNull target owned target_owned gone =>
    obtain ⟨u, hu⟩ := (h.wire w n).mp target_owned
    rw [Netlist.use?, gone] at hu
    cases hu

end Ledger.Consistent

/-! ## Inside the device -/

def Owners.SitesInside (d : Device β) (o : Owners) : Prop :=
  ∀ s c, o.site? s = some c → d.hasSite s = true

def Owners.WiresInside (d : Device β) (o : Owners) : Prop :=
  ∀ w n, o.wire? w = some n → d.hasWire w = true

theorem Owners.SitesInside.effect {d : Device β} {l l' : Ledger} {o : Operation} {reply : Reply}
    {changes : List Change} (h : l.owners.SitesInside d) (he : Effect d l o reply changes l') :
    l'.owners.SitesInside d := by
  intro s' c' hc
  cases he with
  | addCell name type => exact h s' c' hc
  | addNet name => exact h s' c' hc
  | bindSite inside can strength =>
    rw [Ledger.site?_place] at hc
    split at hc
    next e => exact e ▸ inside
    · exact h s' c' hc
  | unbindSite can =>
    rw [Ledger.site?_vacate] at hc
    split at hc
    · cases hc
    · exact h s' c' hc
  | bindWire inside can strength =>
    rw [Ledger.site?_take] at hc
    exact h s' c' hc
  | unbindWire can =>
    rw [Ledger.site?_release] at hc
    exact h s' c' hc
  | bindPip target can strength =>
    rw [Ledger.site?_take] at hc
    exact h s' c' hc
  | unbindPip target can =>
    rw [Ledger.site?_release] at hc
    exact h s' c' hc

theorem Owners.WiresInside.take {d : Device β} {l : Ledger} (h : l.owners.WiresInside d)
    (n : NetRef) (x : Net) {w : Wire} (u : WireUse) (inside : d.hasWire w = true) :
    (l.take n x w u).owners.WiresInside d := by
  intro w' n' hn
  rw [Ledger.wire?_take] at hn
  split at hn
  next e => exact e ▸ inside
  · exact h w' n' hn

theorem Owners.WiresInside.release {d : Device β} {l : Ledger} (h : l.owners.WiresInside d)
    (n : NetRef) (x : Net) (w : Wire) (driver : Option Pip) :
    (l.release n x w driver).owners.WiresInside d := by
  intro w' n' hn
  rw [Ledger.wire?_release] at hn
  split at hn
  · cases hn
  · exact h w' n' hn

/-- A wire may become bound as the target of a pip, so pips must not drive wires outside. -/
theorem Owners.WiresInside.effect {d : Device β} (hd : d.TargetsInside) {l l' : Ledger}
    {o : Operation} {reply : Reply} {changes : List Change} (h : l.owners.WiresInside d)
    (he : Effect d l o reply changes l') : l'.owners.WiresInside d := by
  cases he with
  | addCell name type => exact h
  | addNet name => exact h
  | bindSite inside can strength => exact h
  | unbindSite can => exact h
  | bindWire inside can strength => exact h.take _ _ _ inside
  | unbindWire can => exact h.release _ _ _ _
  | bindPip target can strength =>
    exact h.take _ _ _ ((hd _ _ target).resolve_right can.target_notNull)
  | unbindPip target can => exact h.release _ _ _ _

/-! ## Reachable flows -/

namespace Flow

variable {d : Device β} {f : Flow β}

theorem Reachable.consistent (h : Reachable d f) : f.ledger.Consistent d :=
  h.invariant .empty (fun hl he => hl.effect he) fun hl ho => absurd ho hl.not_orphan

/-- On one netlist a refused operation changes nothing. -/
theorem Reachable.perform_cases (h : Reachable d f) (o : Operation) :
    (∃ reply changes l, Effect d f.ledger o reply changes l) ∨ ∃ r, f.perform o = .refuse f r := by
  have hd := h.device_eq
  rcases Flow.perform_cases f o with he | ⟨l, ho⟩ | hr
  · exact .inl (hd ▸ he)
  · exact absurd (hd ▸ ho) h.consistent.not_orphan
  · exact .inr hr

theorem Reachable.perform_eq (h : Reachable d f) {o : Operation} {reply : Reply}
    {changes : List Change} {l : Ledger} (he : Effect d f.ledger o reply changes l) :
    f.perform o = .accept (f.moved l changes) reply :=
  Flow.perform_of_effect (h.device_eq.symm ▸ he)

/-- On one netlist it is enough that what is carried out keeps a property. -/
theorem Reachable.invariant_of_effect {P : Ledger → Prop} (h : Reachable d f) (empty : P ⟨∅, ∅⟩)
    (effect : ∀ {l l' o reply changes}, P l → Effect d l o reply changes l' → P l') :
    P f.ledger := by
  have both : f.ledger.Consistent d ∧ P f.ledger := by
    refine h.invariant (P := fun l => l.Consistent d ∧ P l) ⟨.empty, empty⟩ ?_ ?_
    · rintro l l' o reply changes ⟨hc, hp⟩ he
      exact ⟨hc.effect he, effect hp he⟩
    · rintro l l' o ⟨hc, _⟩ ho
      exact absurd ho hc.not_orphan
  exact both.2

theorem Reachable.agrees (h : Reachable d f) (hd : d.TargetsInside) : f.Agrees := by
  have hc := h.consistent
  have sites : f.layout.owners.SitesInside d :=
    h.invariant_of_effect (P := fun l => l.owners.SitesInside d) nofun fun hs he => hs.effect he
  have wires : f.layout.owners.WiresInside d :=
    h.invariant_of_effect (P := fun l => l.owners.WiresInside d) nofun fun hw he => hw.effect hd he
  refine ⟨hc.site, hc.wire, ?_, h.device_eq ▸ sites, h.device_eq ▸ wires, ?_⟩
  · intro n w p hp
    exact (hc.pip p n).mpr ⟨w, hc.driver n w p hp, hp⟩
  · intro p n hp
    obtain ⟨w, target, hdr⟩ := (hc.pip p n).mp hp
    obtain ⟨u, hu, _⟩ := Netlist.driver?_eq_some.mp hdr
    exact ⟨w, h.device_eq ▸ target, (hc.wire w n).mpr ⟨u, hu⟩, hdr⟩

/-- After every run from a fresh layout and an empty netlist the owners are those that the netlist
says, no strength is left on an unplaced cell, and an audit passes. The device may be any whose pips
drive wires of its own or the null wire; every chip is one. -/
theorem run_consistent (hd : d.TargetsInside) {names : Interner} {watched : Bool} {l : Layout β}
    (hl : Layout.ofDevice d names watched = .ok l) (os : List Operation) :
    ((⟨l, ∅⟩ : Flow β).run os).ledger.Consistent d ∧
    ((⟨l, ∅⟩ : Flow β).run os).audit = .ok () ∧
    ∀ c : Chip, c.Built → c.device.TargetsInside := by
  have h : Reachable d ((⟨l, ∅⟩ : Flow β).run os) := (Reachable.fresh hl).run os
  refine ⟨h.consistent, ?_, fun c hc => hc.targetsInside⟩
  rw [audit_eq_ok_iff h.built.tail]
  exact h.agrees hd

/-- A run on the sample chip: a pip over a wire in use, a refused bind, and a release. -/
theorem run_consistent_sample :
    Chip.sample.chip.device.TargetsInside ∧
    Layout.ofDevice Chip.sample.chip.device Chip.sample.names true = .ok sample.layout ∧
    (sample.run [.addCell ⟨0⟩ ⟨1⟩, .addNet ⟨2⟩, .bindSite ⟨0⟩ ⟨0⟩ .weak, .bindWire ⟨1⟩ ⟨0⟩ .weak,
      .bindPip ⟨0⟩ ⟨0⟩ .strong, .bindWire ⟨1⟩ ⟨0⟩ .user, .unbindSite ⟨0⟩]).ledger.Consistent
      Chip.sample.chip.device :=
  ⟨Chip.sample_built.targetsInside, ofDevice_sample,
    (run_consistent Chip.sample_built.targetsInside ofDevice_sample _).1⟩

end Flow

end Fabric
