import Fabric.Proofs.Changes
/-!
Views of a flow. A view says which operations are kept, and when two ledgers are alike as far as
these can tell. Flows that are alike answer the kept operations alike and stay alike, and no other
operation shows; so every run keeps step with the same run without the other operations
(`View.run`).
-/

namespace Fabric

variable {β : Type} [BucketKey β]

/-! ## What an operation is about -/

namespace Operation

/-- Whether an operation puts a cell on a site or takes it off. -/
def isPlacing : Operation → Bool
  | bindSite .. | unbindSite _ => true
  | _ => false

/-- Whether an operation binds or frees a wire or a pip. -/
def isRouting : Operation → Bool
  | bindWire .. | unbindWire _ | bindPip .. | unbindPip _ => true
  | _ => false

/-- The wire that an operation is about: its own, or the one that its pip drives. -/
def wire? (d : Device β) : Operation → Option Wire
  | bindWire w .. | unbindWire w => some w
  | bindPip p .. | unbindPip p => (d.target p).toOption
  | _ => none

/-- Whether an operation adds to the netlist or is about a wire. -/
def concerns (d : Device β) (w : Wire) (o : Operation) : Bool :=
  o.isAddition || o.wire? d = some w

section
variable {d : Device β} {w : Wire}

theorem concerns_iff {o : Operation} :
    o.concerns d w = true ↔ o.isAddition = true ∨ o.wire? d = some w := by
  simp [concerns]

@[simp] theorem concerns_bindWire {w' : Wire} {n : NetRef} {strength : Strength} :
    (bindWire w' n strength).concerns d w = true ↔ w' = w := by
  simp [concerns_iff, isAddition, wire?]

@[simp] theorem concerns_unbindWire {w' : Wire} : (unbindWire w').concerns d w = true ↔ w' = w := by
  simp [concerns_iff, isAddition, wire?]

theorem toOption_target {p : Pip} : (d.target p).toOption = some w ↔ d.target p = .ok w := by
  cases d.target p <;> simp [Except.toOption]

@[simp] theorem concerns_bindPip {p : Pip} {n : NetRef} {strength : Strength} :
    (bindPip p n strength).concerns d w = true ↔ d.target p = .ok w := by
  rw [concerns_iff, wire?, toOption_target]
  simp [isAddition]

@[simp] theorem concerns_unbindPip {p : Pip} :
    (unbindPip p).concerns d w = true ↔ d.target p = .ok w := by
  rw [concerns_iff, wire?, toOption_target]
  simp [isAddition]

end

end Operation

/-! ## Views -/

/-- Flows on a device are compared under `alike`. Flows that are alike answer the operations that
`keep` tells alike and stay alike; the others do not show. -/
structure View (d : Device β) (keep : Operation → Bool) (alike : Ledger → Ledger → Prop) :
    Prop where
  answer : ∀ {f g : Flow β} {o}, f.layout.device = d → g.layout.device = d →
    alike f.ledger g.ledger → keep o = true → (f.perform o).answer = (g.perform o).answer
  both : ∀ {l l' m m' o reply reply' changes changes'}, alike l l' → keep o = true →
    Effect d l o reply changes m → Effect d l' o reply' changes' m' → alike m m'
  other : ∀ {l l' m o reply changes}, l.Consistent d → alike l l' → keep o = false →
    Effect d l o reply changes m → alike m l'

namespace Flow

/-- The operations of a run with their answers. -/
def transcript (f : Flow β) (os : List Operation) : List (Operation × Except Refusal Reply) :=
  os.zip (f.answers os)

theorem transcript_cons (f : Flow β) (o : Operation) (os : List Operation) :
    f.transcript (o :: os) = (o, (f.perform o).answer) :: (f.perform o).state.transcript os := rfl

end Flow

namespace View

variable {d : Device β} {keep : Operation → Bool} {alike : Ledger → Ledger → Prop} {f g : Flow β}

theorem step (v : View d keep alike) (hf : f.Reachable d) (hg : g.Reachable d)
    (h : alike f.ledger g.ledger) {o : Operation} (ho : keep o = true) :
    alike (f.perform o).state.ledger (g.perform o).state.ledger := by
  have same := v.answer hf.device_eq hg.device_eq h ho
  rcases hf.perform_cases o with ⟨reply, changes, l, he⟩ | ⟨r, hr⟩
  · rcases hg.perform_cases o with ⟨reply', changes', l', he'⟩ | ⟨r', hr'⟩
    · rw [hf.perform_eq he, hg.perform_eq he']
      exact v.both h ho he he'
    · rw [hf.perform_eq he, hr'] at same
      cases same
  · rcases hg.perform_cases o with ⟨reply', changes', l', he'⟩ | ⟨r', hr'⟩
    · rw [hg.perform_eq he', hr] at same
      cases same
    · rw [hr, hr']
      exact h

theorem skip (v : View d keep alike) (hf : f.Reachable d) (h : alike f.ledger g.ledger)
    {o : Operation} (ho : keep o = false) : alike (f.perform o).state.ledger g.ledger := by
  rcases hf.perform_cases o with ⟨reply, changes, l, he⟩ | ⟨r, hr⟩
  · rw [hf.perform_eq he]
    exact v.other hf.consistent h ho he
  · rw [hr]
    exact h

/-- A run keeps step with the run without the operations that do not show. -/
theorem run (v : View d keep alike) (hf : f.Reachable d) (hg : g.Reachable d)
    (h : alike f.ledger g.ledger) (os : List Operation) :
    (f.transcript os).filter (fun e => keep e.1) = g.transcript (os.filter keep) ∧
    alike (f.run os).ledger (g.run (os.filter keep)).ledger := by
  induction os generalizing f g with
  | nil => exact ⟨rfl, h⟩
  | cons o os ih =>
    cases ho : keep o with
    | true =>
      have same := v.answer hf.device_eq hg.device_eq h ho
      obtain ⟨answers, ledgers⟩ := ih (hf.step o) (hg.step o) (v.step hf hg h ho)
      simp only [Flow.transcript_cons, List.filter_cons, ho, ↓reduceIte, answers, same, true_and]
      exact ledgers
    | false =>
      obtain ⟨answers, ledgers⟩ := ih (hf.step o) hg (v.skip hf h ho)
      simp only [Flow.transcript_cons, List.filter_cons, ho, Bool.false_eq_true, ↓reduceIte]
      exact ⟨answers, ledgers⟩

end View

end Fabric
