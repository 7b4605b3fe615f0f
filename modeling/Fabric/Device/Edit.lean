import Fabric.Device.Draft
/-!
Edits of a chip as data, and runs of them. An edit with strings brings the interner for them.
An edit that is refused does not end a run: the next one goes on from the chip that it left.
-/

namespace Fabric.Chip

/-- One edit of a chip: an entry that is added, a flag that is set, or a row that is patched. -/
inductive Edit where
  | addSite (names : Interner) (name type : String)
  | addWire (names : Interner) (name : String) (type : Option String)
  | addPip (names : Interner) (name : String) (source target : Wire)
  | setHidden (s : Site) (hidden : Bool)
  | setGlobalBuffer (s : Site) (globalBuffer : Bool)
  | patchSite (names : Interner) (s : Site) (hidden globalBuffer : Bool) (attributes : Attributes)
  | patchWire (names : Interner) (w : Wire) (attributes : Attributes)
  | patchPip (names : Interner) (p : Pip) (type : Option String) (attributes : Attributes)

/-- What an edit answers. -/
inductive Reply where
  | done
  | site (s : Site)
  | wire (w : Wire)
  | pip (p : Pip)
  deriving DecidableEq, Repr

/-- Why an edit is refused: the entry cannot be added, or there is no such entry. -/
inductive Rejection where
  | entry (e : EntryError)
  | refusal (r : Refusal)
  deriving DecidableEq, Repr

/-- Of an addition to a draft only the chip is kept. -/
def added {η : Type} (wrap : η → Reply) (o : Outcome EntryError Draft η) :
    Outcome Rejection Chip Reply :=
  match o.answer with
  | .ok h => .accept o.state.chip (wrap h)
  | .error e => .refuse o.state.chip (.entry e)

@[simp] theorem state_added {η : Type} (wrap : η → Reply) (o : Outcome EntryError Draft η) :
    (added wrap o).state = o.state.chip := by
  unfold added
  split <;> rfl

def changed (c : Chip) : Except Refusal Chip → Outcome Rejection Chip Reply
  | .ok c' => .accept c' .done
  | .error r => .refuse c (.refusal r)

def perform (c : Chip) : Edit → Outcome Rejection Chip Reply
  | .addSite names name type => added .site ((⟨names, c⟩ : Draft).addSite name type)
  | .addWire names name type => added .wire ((⟨names, c⟩ : Draft).addWire name type)
  | .addPip names name source target => added .pip ((⟨names, c⟩ : Draft).addPip name source target)
  | .setHidden s hidden => c.changed (c.setHidden s hidden)
  | .setGlobalBuffer s globalBuffer => c.changed (c.setGlobalBuffer s globalBuffer)
  | .patchSite names s hidden globalBuffer attributes =>
    c.changed (((⟨names, c⟩ : Draft).patchSite s hidden globalBuffer attributes).map (·.chip))
  | .patchWire names w attributes =>
    c.changed (((⟨names, c⟩ : Draft).patchWire w attributes).map (·.chip))
  | .patchPip names p type attributes =>
    c.changed (((⟨names, c⟩ : Draft).patchPip p type attributes).map (·.chip))

/-- The chip after a list of edits. -/
def run (c : Chip) : List Edit → Chip
  | [] => c
  | e :: r => (c.perform e).state.run r

/-- The answers to a list of edits. -/
def answers (c : Chip) : List Edit → List (Except Rejection Reply)
  | [] => []
  | e :: r => (c.perform e).answer :: (c.perform e).state.answers r

end Fabric.Chip
