import Fabric.Refusal
import Fabric.SortedMap.Lemmas
import Fabric.Strength
import Fabric.Symbol
/-!
Netlists. A cell knows the site it is placed on; a net lists the wires that belong to it, each with
the pip that drives it. The n-th cell and the n-th net have the handle `n`, and know it.
-/

namespace Fabric

structure Cell where
  id : CellRef
  name : Symbol
  type : Symbol
  /-- The site that the cell is placed on. -/
  site : Option Site
  /-- The strength of the placement, none while there is no site. -/
  strength : Strength
  deriving DecidableEq, Repr

/-- How a net uses a wire. -/
structure WireUse where
  /-- The pip that drives the wire, unless it is used directly. -/
  driver : Option Pip
  strength : Strength
  deriving DecidableEq, Repr

structure Net where
  id : NetRef
  name : Symbol
  /-- The wire-set of the net. -/
  wires : SortedMap Wire WireUse
  deriving DecidableEq, Repr

namespace Net

def driver? (n : Net) (w : Wire) : Option Pip := (n.wires.get? w).bind (·.driver)

def isUnrouted (n : Net) : Bool := n.wires.isEmpty

end Net

@[ext] structure Netlist where
  cells : List Cell
  nets : List Net
  cell_ids : Handle.Numbers Cell.id cells
  net_ids : Handle.Numbers Net.id nets
  deriving DecidableEq, Repr

namespace Netlist

def empty : Netlist := ⟨[], [], .nil, .nil⟩

instance : EmptyCollection Netlist := ⟨empty⟩
instance : Inhabited Netlist := ⟨empty⟩

/-- Adds a cell without a site. -/
def addCell (n : Netlist) (name type : Symbol) : CellRef × Netlist :=
  let id := .ofIndex n.cells.length
  (id, { n with
    cells := n.cells ++ [⟨id, name, type, none, .none⟩]
    cell_ids := n.cell_ids.push rfl })

/-- Adds a net without wires. -/
def addNet (n : Netlist) (name : Symbol) : NetRef × Netlist :=
  let id := .ofIndex n.nets.length
  (id, { n with
    nets := n.nets ++ [⟨id, name, ∅⟩]
    net_ids := n.net_ids.push rfl })

def cell? (n : Netlist) (c : CellRef) : Option Cell := n.cells[c.index]?

def net? (n : Netlist) (m : NetRef) : Option Net := n.nets[m.index]?

/-- The cell of a handle, which must be one of this netlist's. -/
def cell (n : Netlist) (c : CellRef) : Except Refusal Cell :=
  match n.cell? c with
  | some x => .ok x
  | none => .error (.outOfRange n.cells.length c.index)

/-- The net of a handle, which must be one of this netlist's. -/
def net (n : Netlist) (m : NetRef) : Except Refusal Net :=
  match n.net? m with
  | some x => .ok x
  | none => .error (.outOfRange n.nets.length m.index)

/-- Rewrites a cell. It keeps its handle. -/
def setCell (n : Netlist) (c : CellRef) (x : Cell) : Netlist :=
  { n with
    cells := n.cells.set c.index { x with id := c }
    cell_ids := n.cell_ids.set rfl }

/-- Rewrites a net. It keeps its handle. -/
def setNet (n : Netlist) (m : NetRef) (x : Net) : Netlist :=
  { n with
    nets := n.nets.set m.index { x with id := m }
    net_ids := n.net_ids.set rfl }

/-- Places a cell by hand. -/
def placeCell (n : Netlist) (c : CellRef) (site : Option Site) (strength : Strength) :
    Except Refusal Netlist := do
  let x ← n.cell c
  .ok (n.setCell c { x with site, strength })

/-- Enters a wire into a wire-set by hand; the answer says whether it was there before. -/
def enterWire (n : Netlist) (m : NetRef) (w : Wire) (u : WireUse) :
    Except Refusal (Bool × Netlist) := do
  let x ← n.net m
  .ok (x.wires.contains w, n.setNet m { x with wires := x.wires.insert w u })

/-- Removes a wire from a wire-set by hand; the answer says whether it was there before. -/
def removeWire (n : Netlist) (m : NetRef) (w : Wire) : Except Refusal (Bool × Netlist) := do
  let x ← n.net m
  .ok (x.wires.contains w, n.setNet m { x with wires := x.wires.erase w })

end Netlist

end Fabric
