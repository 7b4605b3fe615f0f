import Fabric.Proofs.Reachable
/-!
What a refusal leaves. A refused operation leaves owners, netlist and log as they were, with two
exceptions: freeing a site whose cell, or a pip whose net, is not in the netlist that it is called
with. There the entry of the site, or that of the pip's target wire, is lost.
-/

namespace Fabric

variable {β : Type} [BucketKey β]

theorem Orphan.ne {d : Device β} {l l' : Ledger} {o : Operation} (h : Orphan d l o l') :
    l' ≠ l := by
  intro e
  cases h with
  | @unbindSite s c notNull owned gone =>
    have hs := l.site?_freeSite (s := s) s
    rw [e, owned, if_pos rfl] at hs
    cases hs
  | @unbindPip p w n notNull target owned target_owned gone =>
    have hw := l.wire?_freeWire (w := w) w
    rw [e, target_owned, if_pos rfl] at hw
    cases hw

namespace Flow

/-- A refused operation changes nothing exactly when it does not find the owner that it should free
missing from the netlist. In that case it drops one entry and logs nothing. -/
theorem refused_state_eq_iff {f : Flow β} {o : Operation} {r : Refusal}
    (h : (f.perform o).answer = .error r) :
    ((f.perform o).state = f ↔ ¬ ∃ l, Orphan f.layout.device f.ledger o l) ∧
    ∀ l, Orphan f.layout.device f.ledger o l → (f.perform o).state = f.moved l [] := by
  have left : ∀ l, Orphan f.layout.device f.ledger o l → (f.perform o).state = f.moved l [] := by
    intro l ho
    obtain ⟨r', hr⟩ := perform_of_orphan ho
    rw [hr]
    rfl
  refine ⟨⟨?_, ?_⟩, left⟩
  · rintro he ⟨l, ho⟩
    rw [left l ho] at he
    exact ho.ne (congrArg ledger he)
  · intro hn
    rcases perform_cases f o with ⟨reply, changes, l, he⟩ | ho | ⟨r', hr⟩
    · rw [perform_of_effect he] at h
      cases h
    · exact absurd ho hn
    · rw [hr]
      rfl

/-- The layout of a chip with a cell on its site, called with an empty netlist. -/
def elsewhere : Flow Symbol :=
  { sample.run [.addCell ⟨0⟩ ⟨1⟩, .bindSite ⟨0⟩ ⟨0⟩ .weak] with netlist := ∅ }

theorem refused_state_elsewhere :
    (elsewhere.perform (.unbindSite ⟨0⟩)).answer = .error (.outOfRange 0 0) ∧
    ((elsewhere.perform (.unbindSite ⟨0⟩)).state = elsewhere ↔
      ¬ ∃ l, Orphan elsewhere.layout.device elsewhere.ledger (.unbindSite ⟨0⟩) l) :=
  ⟨rfl, (refused_state_eq_iff rfl).1⟩

/-- Not every refusal leaves a layout that operations led to as it was. -/
theorem unbindSite_elsewhere :
    elsewhere.layout.Reached ∧
    (elsewhere.perform (.unbindSite ⟨0⟩)).answer = .error (.outOfRange 0 0) ∧
    elsewhere.layout.owners.site? ⟨0⟩ = some ⟨0⟩ ∧
    (elsewhere.perform (.unbindSite ⟨0⟩)).state.layout.owners.site? ⟨0⟩ = none :=
  ⟨(sample_reachable _).reached, rfl, rfl, rfl⟩

end Flow

end Fabric
