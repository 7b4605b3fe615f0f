import Fabric.Layout.Basic
/-!
Operations as data, and runs of them. A refused operation does not end a run: the next one goes on
from the state that it left.
-/

namespace Fabric

/-- One operation on a flow: an addition to the netlist, or one of the six actions. -/
inductive Operation where
  | addCell (name type : Symbol)
  | addNet (name : Symbol)
  | bindSite (s : Site) (c : CellRef) (strength : Strength)
  | unbindSite (s : Site)
  | bindWire (w : Wire) (n : NetRef) (strength : Strength)
  | unbindWire (w : Wire)
  | bindPip (p : Pip) (n : NetRef) (strength : Strength)
  | unbindPip (p : Pip)
  deriving DecidableEq, Repr

/-- What an operation answers. -/
inductive Reply where
  | done
  | cell (c : CellRef)
  | net (n : NetRef)
  deriving DecidableEq, Repr

namespace Flow

variable {β : Type} [BucketKey β]

/-- Replaces the answer of an operation that was carried out. -/
def reply {σ α : Type} (wrap : α → Reply) (o : Outcome Refusal σ α) : Outcome Refusal σ Reply :=
  ⟨o.answer.map wrap, o.state⟩

def perform (f : Flow β) : Operation → Outcome Refusal (Flow β) Reply
  | .addCell name type =>
    let (c, netlist) := f.netlist.addCell name type
    .accept { f with netlist } (.cell c)
  | .addNet name =>
    let (n, netlist) := f.netlist.addNet name
    .accept { f with netlist } (.net n)
  | .bindSite s c strength => reply (fun _ => .done) (f.bindSite s c strength)
  | .unbindSite s => reply .cell (f.unbindSite s)
  | .bindWire w n strength => reply (fun _ => .done) (f.bindWire w n strength)
  | .unbindWire w => reply .net (f.unbindWire w)
  | .bindPip p n strength => reply (fun _ => .done) (f.bindPip p n strength)
  | .unbindPip p => reply .net (f.unbindPip p)

/-- The state after a list of operations. -/
def run (f : Flow β) : List Operation → Flow β
  | [] => f
  | o :: r => (f.perform o).state.run r

/-- The answers to a list of operations. -/
def answers (f : Flow β) : List Operation → List (Except Refusal Reply)
  | [] => []
  | o :: r => (f.perform o).answer :: (f.perform o).state.answers r

/-- A watched layout of a device on which nothing is bound, and an empty netlist. -/
def fresh (d : Device β) (names : Interner) : Except Refusal (Flow β) := do
  let layout ← Layout.ofDevice d names true
  .ok ⟨layout, ∅⟩

end Flow

end Fabric
