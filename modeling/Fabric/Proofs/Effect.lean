import Fabric.Layout.Operation
import Fabric.Proofs.Moves
/-!
What an operation does. `Effect` says it as a relation: the condition, the reply, the changes that
are logged and the ledger after. `Flow.perform` carries out exactly these effects. Whatever else it
is asked it refuses, and then it stands still, unless an owner to be freed is missing from the
netlist (`Orphan`).
-/

namespace Fabric

namespace Ledger

/-! ## When an operation moves -/

structure CanBindSite (l : Ledger) (s : Site) (c : CellRef) (x : Cell) : Prop where
  notNull : s ≠ .null
  free : l.owners.site? s = none
  cell : l.netlist.cell? c = some x
  unplaced : x.site = none

structure CanUnbindSite (l : Ledger) (s : Site) (c : CellRef) (x : Cell) : Prop where
  notNull : s ≠ .null
  owned : l.owners.site? s = some c
  cell : l.netlist.cell? c = some x

structure CanBindWire (l : Ledger) (w : Wire) (n : NetRef) (x : Net) : Prop where
  notNull : w ≠ .null
  free : l.owners.wire? w = none
  net : l.netlist.net? n = some x

structure CanUnbindWire (l : Ledger) (w : Wire) (n : NetRef) (x : Net) (u : WireUse) : Prop where
  notNull : w ≠ .null
  owned : l.owners.wire? w = some n
  net : l.netlist.net? n = some x
  listed : x.wires.get? w = some u

/-- A target wire may have an owner already: the net itself, if it does not drive the wire yet. -/
structure CanBindPip (l : Ledger) (p : Pip) (w : Wire) (n : NetRef) (x : Net) : Prop where
  notNull : p ≠ .null
  target_notNull : w ≠ .null
  free : l.owners.pip? p = none
  net : l.netlist.net? n = some x
  fits : ∀ m, l.owners.wire? w = some m → m = n ∧ x.driver? w = none

structure CanUnbindPip (l : Ledger) (p : Pip) (w : Wire) (n : NetRef) (x : Net) : Prop where
  notNull : p ≠ .null
  owned : l.owners.pip? p = some n
  target_owned : l.owners.wire? w = some n
  net : l.netlist.net? n = some x

/-! ## The operations on the ledger -/

section
variable {l : Ledger} {s : Site} {c : CellRef} {w : Wire} {p : Pip} {n : NetRef}

theorem bindSite_accept {x : Cell} (h : l.CanBindSite s c x) (strength : Strength) :
    l.bindSite s c strength = .accept (l.place s c x strength) () := by
  simp [bindSite, h.notNull, h.free, Netlist.cell, h.cell, h.unplaced, place]

theorem unbindSite_accept {x : Cell} (h : l.CanUnbindSite s c x) :
    l.unbindSite s = .accept (l.vacate s c x) c := by
  simp [unbindSite, h.notNull, h.owned, Netlist.cell, h.cell, vacate]

theorem unbindSite_orphan (notNull : s ≠ .null) (owned : l.owners.site? s = some c)
    (gone : l.netlist.cell? c = none) :
    l.unbindSite s = .refuse (l.freeSite s) (.outOfRange l.netlist.cells.length c.index) := by
  simp [unbindSite, notNull, owned, Netlist.cell, gone]

theorem bindWire_accept {x : Net} (h : l.CanBindWire w n x) (strength : Strength) :
    l.bindWire w n strength = .accept (l.take n x w ⟨none, strength⟩) () := by
  simp [bindWire, h.notNull, h.free, Netlist.net, h.net, take]

theorem unbindWire_accept {x : Net} {u : WireUse} (h : l.CanUnbindWire w n x u) :
    l.unbindWire w = .accept (l.release n x w u.driver) ⟨n, u.driver⟩ := by
  obtain ⟨driver, strength⟩ := u
  have hl := h.listed
  cases driver with
  | none => simp [unbindWire, h.notNull, h.owned, Netlist.net, h.net, hl, release]
  | some p =>
    simp only [unbindWire, Handle.isNull_iff, h.notNull, ↓reduceIte, h.owned, Netlist.net, h.net,
      hl]
    rfl

theorem bindPip_accept {x : Net} (h : l.CanBindPip p w n x) (strength : Strength) :
    l.bindPip p w n strength = .accept (l.take n x w ⟨some p, strength⟩) () := by
  have hc : l.checkTarget p w n = .ok () := by
    unfold checkTarget
    split
    · rfl
    next m hm =>
      obtain ⟨rfl, hd⟩ := h.fits m hm
      simp [Netlist.net, h.net, hd]
  simp [bindPip, h.notNull, h.target_notNull, h.free, hc, Netlist.net, h.net, take]

theorem unbindPip_accept {x : Net} (h : l.CanUnbindPip p w n x) :
    l.unbindPip p w = .accept (l.release n x w (some p)) n := by
  simp only [unbindPip, Handle.isNull_iff, h.notNull, ↓reduceIte, h.owned, h.target_owned, ne_eq,
    not_true_eq_false, Netlist.net, h.net]
  rfl

theorem unbindPip_orphan (notNull : p ≠ .null) (owned : l.owners.pip? p = some n)
    (target_owned : l.owners.wire? w = some n) (gone : l.netlist.net? n = none) :
    l.unbindPip p w = .refuse (l.freeWire w) (.outOfRange l.netlist.nets.length n.index) := by
  simp [unbindPip, notNull, owned, target_owned, Netlist.net, gone]

variable (l s c w p n)

theorem bindSite_cases (strength : Strength) :
    (∃ x, l.CanBindSite s c x) ∨ ∃ r, l.bindSite s c strength = .refuse l r := by
  by_cases hs : s = .null
  · exact .inr ⟨.nullHandle .bindSite, by simp [bindSite, hs]⟩
  cases free : l.owners.site? s with
  | some owner => exact .inr ⟨.siteTaken s owner, by simp [bindSite, hs, free]⟩
  | none =>
    cases hx : l.netlist.cell? c with
    | none =>
      refine .inr ⟨.outOfRange l.netlist.cells.length c.index, ?_⟩
      simp [bindSite, hs, free, Netlist.cell, hx]
    | some x =>
      cases unplaced : x.site with
      | some current =>
        refine .inr ⟨.cellPlaced c current, ?_⟩
        simp [bindSite, hs, free, Netlist.cell, hx, unplaced]
      | none => exact .inl ⟨x, hs, free, hx, unplaced⟩

theorem unbindSite_cases :
    (∃ c x, l.CanUnbindSite s c x) ∨
    (s ≠ .null ∧ ∃ c, l.owners.site? s = some c ∧ l.netlist.cell? c = none) ∨
    ∃ r, l.unbindSite s = .refuse l r := by
  by_cases hs : s = .null
  · exact .inr (.inr ⟨.nullHandle .unbindSite, by simp [unbindSite, hs]⟩)
  cases owned : l.owners.site? s with
  | none => exact .inr (.inr ⟨.siteFree s, by simp [unbindSite, hs, owned]⟩)
  | some c =>
    cases hx : l.netlist.cell? c with
    | none => exact .inr (.inl ⟨hs, c, rfl, hx⟩)
    | some x => exact .inl ⟨c, x, hs, owned, hx⟩

theorem bindWire_cases (strength : Strength) :
    (∃ x, l.CanBindWire w n x) ∨ ∃ r, l.bindWire w n strength = .refuse l r := by
  by_cases hw : w = .null
  · exact .inr ⟨.nullHandle .bindWire, by simp [bindWire, hw]⟩
  cases free : l.owners.wire? w with
  | some owner => exact .inr ⟨.wireTaken w owner, by simp [bindWire, hw, free]⟩
  | none =>
    cases hx : l.netlist.net? n with
    | none =>
      refine .inr ⟨.outOfRange l.netlist.nets.length n.index, ?_⟩
      simp [bindWire, hw, free, Netlist.net, hx]
    | some x => exact .inl ⟨x, hw, free, hx⟩

theorem unbindWire_cases :
    (∃ n x u, l.CanUnbindWire w n x u) ∨ ∃ r, l.unbindWire w = .refuse l r := by
  by_cases hw : w = .null
  · exact .inr ⟨.nullHandle .unbindWire, by simp [unbindWire, hw]⟩
  cases owned : l.owners.wire? w with
  | none => exact .inr ⟨.wireFree w, by simp [unbindWire, hw, owned]⟩
  | some n =>
    cases hx : l.netlist.net? n with
    | none =>
      refine .inr ⟨.outOfRange l.netlist.nets.length n.index, ?_⟩
      simp [unbindWire, hw, owned, Netlist.net, hx]
    | some x =>
      cases hu : x.wires.get? w with
      | none =>
        refine .inr ⟨.wireUnlisted w n, ?_⟩
        simp [unbindWire, hw, owned, Netlist.net, hx, hu]
      | some u => exact .inl ⟨n, x, u, hw, owned, hx, hu⟩

/-- A check that passes finds the target free, or with the net itself, which is then in the netlist
and does not drive it yet. -/
theorem checkTarget_cases :
    (l.checkTarget p w n = .ok () ∧ ∀ m, l.owners.wire? w = some m →
      m = n ∧ ∃ x, l.netlist.net? n = some x ∧ x.driver? w = none) ∨
    ∃ r, l.checkTarget p w n = .error r := by
  cases owned : l.owners.wire? w with
  | none => exact .inl ⟨by simp [checkTarget, owned], by simp⟩
  | some owner =>
    by_cases ho : owner = n
    · cases hx : l.netlist.net? n with
      | none =>
        refine .inr ⟨.outOfRange l.netlist.nets.length n.index, ?_⟩
        simp [checkTarget, owned, ho, Netlist.net, hx]
      | some x =>
        cases hd : x.driver? w with
        | none =>
          refine .inl ⟨by simp [checkTarget, owned, ho, Netlist.net, hx, hd], ?_⟩
          intro m hm
          cases hm
          exact ⟨ho, x, rfl, hd⟩
        | some q =>
          refine .inr ⟨.targetDriven w p q, ?_⟩
          simp [checkTarget, owned, ho, Netlist.net, hx, hd]
    · exact .inr ⟨.targetTaken w p owner, by simp [checkTarget, owned, ho]⟩

theorem bindPip_cases (strength : Strength) :
    (∃ x, l.CanBindPip p w n x) ∨ ∃ r, l.bindPip p w n strength = .refuse l r := by
  by_cases hp : p = .null
  · exact .inr ⟨.nullHandle .bindPip, by simp [bindPip, hp]⟩
  by_cases hw : w = .null
  · exact .inr ⟨.nullTarget p, by simp [bindPip, hp, hw]⟩
  cases free : l.owners.pip? p with
  | some owner => exact .inr ⟨.pipTaken p owner, by simp [bindPip, hp, hw, free]⟩
  | none =>
    rcases checkTarget_cases l w p n with ⟨hc, fits⟩ | ⟨r, hc⟩
    · cases hx : l.netlist.net? n with
      | none =>
        refine .inr ⟨.outOfRange l.netlist.nets.length n.index, ?_⟩
        simp [bindPip, hp, hw, free, hc, Netlist.net, hx]
      | some x =>
        refine .inl ⟨x, hp, hw, free, hx, fun m hm => ?_⟩
        obtain ⟨e, y, hy, hd⟩ := fits m hm
        cases hx.symm.trans hy
        exact ⟨e, hd⟩
    · exact .inr ⟨r, by simp [bindPip, hp, hw, free, hc]⟩

theorem unbindPip_cases :
    (∃ n x, l.CanUnbindPip p w n x) ∨
    (p ≠ .null ∧ ∃ n, l.owners.pip? p = some n ∧ l.owners.wire? w = some n ∧
      l.netlist.net? n = none) ∨
    ∃ r, l.unbindPip p w = .refuse l r := by
  by_cases hp : p = .null
  · exact .inr (.inr ⟨.nullHandle .unbindPip, by simp [unbindPip, hp]⟩)
  cases owned : l.owners.pip? p with
  | none => exact .inr (.inr ⟨.pipFree p, by simp [unbindPip, hp, owned]⟩)
  | some n =>
    cases target : l.owners.wire? w with
    | none => exact .inr (.inr ⟨.targetFree w p, by simp [unbindPip, hp, owned, target]⟩)
    | some owner =>
      by_cases ho : owner = n
      · subst ho
        cases hx : l.netlist.net? owner with
        | none => exact .inr (.inl ⟨hp, owner, rfl, rfl, hx⟩)
        | some x => exact .inl ⟨owner, x, hp, owned, target, hx⟩
      · refine .inr (.inr ⟨.targetElsewhere w p owner n, ?_⟩)
        simp [unbindPip, hp, owned, target, ho]

end

end Ledger

/-! ## Effects -/

variable {β : Type} [BucketKey β]

/-- What an operation that is carried out replies, logs and makes of the ledger. -/
inductive Effect (d : Device β) (l : Ledger) : Operation → Reply → List Change → Ledger → Prop
  | addCell (name type : Symbol) : Effect d l (.addCell name type)
      (.cell (l.netlist.addCell name type).1) [] ⟨l.owners, (l.netlist.addCell name type).2⟩
  | addNet (name : Symbol) : Effect d l (.addNet name)
      (.net (l.netlist.addNet name).1) [] ⟨l.owners, (l.netlist.addNet name).2⟩
  | bindSite {s c x} (inside : d.hasSite s = true) (can : l.CanBindSite s c x)
      (strength : Strength) :
      Effect d l (.bindSite s c strength) .done [.site s] (l.place s c x strength)
  | unbindSite {s c x} (can : l.CanUnbindSite s c x) :
      Effect d l (.unbindSite s) (.cell c) [.site s] (l.vacate s c x)
  | bindWire {w n x} (inside : d.hasWire w = true) (can : l.CanBindWire w n x)
      (strength : Strength) :
      Effect d l (.bindWire w n strength) .done [.wire w] (l.take n x w ⟨none, strength⟩)
  | unbindWire {w n x u} (can : l.CanUnbindWire w n x u) :
      Effect d l (.unbindWire w) (.net n) (.wire w :: (u.driver.map Change.pip).toList)
        (l.release n x w u.driver)
  | bindPip {p w n x} (target : d.target p = .ok w) (can : l.CanBindPip p w n x)
      (strength : Strength) :
      Effect d l (.bindPip p n strength) .done [.pip p, .wire w] (l.take n x w ⟨some p, strength⟩)
  | unbindPip {p w n x} (target : d.target p = .ok w) (can : l.CanUnbindPip p w n x) :
      Effect d l (.unbindPip p) (.net n) [.pip p, .wire w] (l.release n x w (some p))

/-- What a refused operation makes of the ledger when the owner that it should free is not in the
netlist. -/
inductive Orphan (d : Device β) (l : Ledger) : Operation → Ledger → Prop
  | unbindSite {s c} (notNull : s ≠ .null) (owned : l.owners.site? s = some c)
      (gone : l.netlist.cell? c = none) : Orphan d l (.unbindSite s) (l.freeSite s)
  | unbindPip {p w n} (notNull : p ≠ .null) (target : d.target p = .ok w)
      (owned : l.owners.pip? p = some n) (target_owned : l.owners.wire? w = some n)
      (gone : l.netlist.net? n = none) : Orphan d l (.unbindPip p) (l.freeWire w)

namespace Flow

/-- The flow with another ledger, and with changes added to the log. -/
def moved (f : Flow β) (l : Ledger) (changes : List Change) : Flow β :=
  ⟨{ f.layout with owners := l.owners, log := f.layout.log.map (· ++ changes) }, l.netlist⟩

@[simp] theorem ledger_moved (f : Flow β) (l : Ledger) (changes : List Change) :
    (f.moved l changes).ledger = l := rfl

@[simp] theorem device_moved (f : Flow β) (l : Ledger) (changes : List Change) :
    (f.moved l changes).layout.device = f.layout.device := rfl

theorem moved_ledger (f : Flow β) : f.moved f.ledger [] = f := by
  obtain ⟨⟨device, types, partition, owners, log⟩, netlist⟩ := f
  cases log <;> simp [moved, ledger]

theorem commit_accept {α γ : Type} (f : Flow β) (l : Ledger) (a : α) (changes : α → List Change)
    (answer : α → γ) :
    f.commit (.accept l a) changes answer = .accept (f.moved l (changes a)) (answer a) := rfl

theorem commit_refuse {α γ : Type} (f : Flow β) (l : Ledger) (r : Refusal)
    (changes : α → List Change) (answer : α → γ) :
    f.commit (.refuse l r) changes answer = .refuse (f.moved l []) r := by
  obtain ⟨⟨device, types, partition, owners, log⟩, netlist⟩ := f
  cases log <;> simp [commit, Outcome.refuse, moved]

theorem commit_answer {α γ : Type} (f : Flow β) (o : Outcome Refusal Ledger α)
    (changes : α → List Change) (answer : α → γ) :
    (f.commit o changes answer).answer = o.answer.map answer := by
  unfold commit
  cases o.answer <;> rfl

/-- A refusal of the ledger that stands still. -/
@[simp] theorem commit_stay {α γ : Type} (f : Flow β) (r : Refusal) (changes : α → List Change)
    (answer : α → γ) : f.commit (.refuse f.ledger r) changes answer = .refuse f r := by
  rw [commit_refuse, moved_ledger]

@[simp] theorem reply_refuse {σ α : Type} (wrap : α → Reply) (state : σ) (r : Refusal) :
    reply wrap (.refuse state r) = .refuse state r := rfl

/-- An addition to the netlist is not logged. -/
theorem moved_netlist (f : Flow β) (m : Netlist) :
    f.moved ⟨f.layout.owners, m⟩ [] = { f with netlist := m } := by
  obtain ⟨⟨device, types, partition, owners, log⟩, netlist⟩ := f
  cases log <;> simp [moved]

/-- Each effect is carried out. -/
theorem perform_of_effect {f : Flow β} {o : Operation} {reply : Reply} {changes : List Change}
    {l : Ledger} (h : Effect f.layout.device f.ledger o reply changes l) :
    f.perform o = .accept (f.moved l changes) reply := by
  cases h with
  | addCell name type =>
    show _ = Outcome.accept (f.moved ⟨f.layout.owners, _⟩ []) _
    rw [moved_netlist]
    rfl
  | addNet name =>
    show _ = Outcome.accept (f.moved ⟨f.layout.owners, _⟩ []) _
    rw [moved_netlist]
    rfl
  | bindSite inside can strength =>
    simp only [perform, bindSite, Handle.isNull_iff, can.notNull, ↓reduceIte, inside,
      Ledger.bindSite_accept can, commit_accept]
    rfl
  | unbindSite can =>
    simp only [perform, unbindSite, Ledger.unbindSite_accept can, commit_accept]
    rfl
  | bindWire inside can strength =>
    simp only [perform, bindWire, Handle.isNull_iff, can.notNull, ↓reduceIte, inside,
      Ledger.bindWire_accept can, commit_accept]
    rfl
  | unbindWire can =>
    simp only [perform, unbindWire, Ledger.unbindWire_accept can, commit_accept]
    rfl
  | bindPip target can strength =>
    simp only [perform, bindPip, Handle.isNull_iff, can.notNull, ↓reduceIte, target,
      Ledger.bindPip_accept can, commit_accept]
    rfl
  | unbindPip target can =>
    simp only [perform, unbindPip, Handle.isNull_iff, can.notNull, ↓reduceIte, target,
      Ledger.unbindPip_accept can, commit_accept]
    rfl

/-- Two effects in a row are carried out one after the other. -/
theorem run_of_effects {f : Flow β} {o o' : Operation} {reply reply' : Reply}
    {changes changes' : List Change} {l l' : Ledger}
    (he : Effect f.layout.device f.ledger o reply changes l)
    (he' : Effect f.layout.device l o' reply' changes' l') :
    ((f.perform o).state.perform o').accepted = true ∧ (f.run [o, o']).ledger = l' := by
  have second : (f.moved l changes).perform o' =
      .accept ((f.moved l changes).moved l' changes') reply' := perform_of_effect he'
  simp only [run, perform_of_effect he, Outcome.accept] at second ⊢
  rw [second]
  exact ⟨rfl, rfl⟩

/-- A refused operation that finds an owner missing from the netlist still drops what it owned. -/
theorem perform_of_orphan {f : Flow β} {o : Operation} {l : Ledger}
    (h : Orphan f.layout.device f.ledger o l) : ∃ r, f.perform o = .refuse (f.moved l []) r := by
  cases h with
  | @unbindSite s c notNull owned gone =>
    refine ⟨.outOfRange f.netlist.cells.length c.index, ?_⟩
    simp only [perform, unbindSite, Ledger.unbindSite_orphan notNull owned gone, commit_refuse]
    rfl
  | @unbindPip p w n notNull target owned target_owned gone =>
    refine ⟨.outOfRange f.netlist.nets.length n.index, ?_⟩
    simp only [perform, unbindPip, Handle.isNull_iff, notNull, ↓reduceIte, target,
      Ledger.unbindPip_orphan notNull owned target_owned gone, commit_refuse]
    rfl

/-- An operation has its effect, or leaves an owner that is missing from the netlist without what it
owned, or is refused and changes nothing. -/
theorem perform_cases (f : Flow β) (o : Operation) :
    (∃ reply changes l, Effect f.layout.device f.ledger o reply changes l) ∨
    (∃ l, Orphan f.layout.device f.ledger o l) ∨ ∃ r, f.perform o = .refuse f r := by
  cases o with
  | addCell name type => exact .inl ⟨_, _, _, .addCell name type⟩
  | addNet name => exact .inl ⟨_, _, _, .addNet name⟩
  | bindSite s c strength =>
    by_cases hs : s = .null
    · exact .inr (.inr ⟨.nullHandle .bindSite, by simp [perform, bindSite, hs]⟩)
    cases inside : f.layout.device.hasSite s with
    | false =>
      refine .inr (.inr ⟨.siteOutside s f.layout.device.name, ?_⟩)
      simp [perform, bindSite, hs, inside]
    | true =>
      rcases Ledger.bindSite_cases f.ledger s c strength with ⟨x, can⟩ | ⟨r, hr⟩
      · exact .inl ⟨_, _, _, .bindSite inside can strength⟩
      · refine .inr (.inr ⟨r, ?_⟩)
        simp [perform, bindSite, hs, inside, hr]
  | unbindSite s =>
    rcases Ledger.unbindSite_cases f.ledger s with ⟨c, x, can⟩ | ⟨hs, c, owned, gone⟩ | ⟨r, hr⟩
    · exact .inl ⟨_, _, _, .unbindSite can⟩
    · exact .inr (.inl ⟨_, .unbindSite hs owned gone⟩)
    · refine .inr (.inr ⟨r, ?_⟩)
      simp [perform, unbindSite, hr]
  | bindWire w n strength =>
    by_cases hw : w = .null
    · exact .inr (.inr ⟨.nullHandle .bindWire, by simp [perform, bindWire, hw]⟩)
    cases inside : f.layout.device.hasWire w with
    | false =>
      refine .inr (.inr ⟨.wireOutside w f.layout.device.name, ?_⟩)
      simp [perform, bindWire, hw, inside]
    | true =>
      rcases Ledger.bindWire_cases f.ledger w n strength with ⟨x, can⟩ | ⟨r, hr⟩
      · exact .inl ⟨_, _, _, .bindWire inside can strength⟩
      · refine .inr (.inr ⟨r, ?_⟩)
        simp [perform, bindWire, hw, inside, hr]
  | unbindWire w =>
    rcases Ledger.unbindWire_cases f.ledger w with ⟨n, x, u, can⟩ | ⟨r, hr⟩
    · exact .inl ⟨_, _, _, .unbindWire can⟩
    · refine .inr (.inr ⟨r, ?_⟩)
      simp [perform, unbindWire, hr]
  | bindPip p n strength =>
    by_cases hp : p = .null
    · exact .inr (.inr ⟨.nullHandle .bindPip, by simp [perform, bindPip, hp]⟩)
    cases target : f.layout.device.target p with
    | error r => exact .inr (.inr ⟨r, by simp [perform, bindPip, hp, target]⟩)
    | ok w =>
      rcases Ledger.bindPip_cases f.ledger w p n strength with ⟨x, can⟩ | ⟨r, hr⟩
      · exact .inl ⟨_, _, _, .bindPip target can strength⟩
      · refine .inr (.inr ⟨r, ?_⟩)
        simp [perform, bindPip, hp, target, hr]
  | unbindPip p =>
    by_cases hp : p = .null
    · exact .inr (.inr ⟨.nullHandle .unbindPip, by simp [perform, unbindPip, hp]⟩)
    cases target : f.layout.device.target p with
    | error r => exact .inr (.inr ⟨r, by simp [perform, unbindPip, hp, target]⟩)
    | ok w =>
      rcases Ledger.unbindPip_cases f.ledger w p with
        ⟨n, x, can⟩ | ⟨_, n, owned, target_owned, gone⟩ | ⟨r, hr⟩
      · exact .inl ⟨_, _, _, .unbindPip target can⟩
      · exact .inr (.inl ⟨_, .unbindPip hp target owned target_owned gone⟩)
      · refine .inr (.inr ⟨r, ?_⟩)
        simp [perform, unbindPip, hp, target, hr]

/-- An operation is carried out exactly when it has an effect. -/
theorem perform_eq_accept_iff {f g : Flow β} {o : Operation} {reply : Reply} :
    f.perform o = .accept g reply ↔
      ∃ changes l, Effect f.layout.device f.ledger o reply changes l ∧ g = f.moved l changes := by
  constructor
  · intro h
    rcases perform_cases f o with ⟨reply', changes, l, he⟩ | ⟨l, ho⟩ | ⟨r, hr⟩
    · rw [perform_of_effect he] at h
      cases h
      exact ⟨changes, l, he, rfl⟩
    · obtain ⟨r, hr⟩ := perform_of_orphan ho
      rw [hr] at h
      cases h
    · rw [hr] at h
      cases h
  · rintro ⟨changes, l, he, rfl⟩
    exact perform_of_effect he

theorem answer_eq_ok_iff {f : Flow β} {o : Operation} {reply : Reply} :
    (f.perform o).answer = .ok reply ↔
      ∃ changes l, Effect f.layout.device f.ledger o reply changes l := by
  constructor
  · intro h
    have accept : f.perform o = .accept (f.perform o).state reply := by
      rw [Outcome.accept, ← h]
    obtain ⟨changes, l, he, _⟩ := perform_eq_accept_iff.mp accept
    exact ⟨changes, l, he⟩
  · rintro ⟨changes, l, he⟩
    rw [perform_of_effect he]
    rfl

theorem accepted_iff {f : Flow β} {o : Operation} : (f.perform o).accepted = true ↔
    ∃ reply changes l, Effect f.layout.device f.ledger o reply changes l := by
  constructor
  · intro h
    cases e : f.perform o with
    | mk answer state =>
      rw [e] at h
      cases answer with
      | error r => cases h
      | ok reply =>
        obtain ⟨changes, l, he, _⟩ := perform_eq_accept_iff.mp e
        exact ⟨reply, changes, l, he⟩
  · rintro ⟨reply, changes, l, he⟩
    rw [perform_of_effect he]
    rfl

end Flow

end Fabric
