import Fabric.Number.Binary
import Fabric.Symbol
import Fabric.Word
/-!
Timing of cells: delays, the classes of ports, and how a port relates to its clock.
-/

namespace Fabric

open Number

/-- A delay in nanoseconds, at its least, typical and greatest. -/
structure Delay where
  least : Double
  typical : Double
  greatest : Double
  deriving DecidableEq, Repr

namespace Delay

def zero : Delay := ⟨.zero, .zero, .zero⟩

instance : Inhabited Delay := ⟨zero⟩

/-- Equality of the three numbers, by value. -/
def equal (a b : Delay) : Bool :=
  a.least.equal b.least && a.typical.equal b.typical && a.greatest.equal b.greatest

end Delay

inductive PortClass where
  | clockInput | registerOutput | registerInput | combInput | combOutput | startPoint | endPoint
  | ignore
  deriving DecidableEq, Repr

instance : Word PortClass where
  all := [.clockInput, .registerOutput, .registerInput, .combInput, .combOutput, .startPoint,
    .endPoint, .ignore]
  word
    | .clockInput => "ClockInput"
    | .registerOutput => "RegisterOutput"
    | .registerInput => "RegisterInput"
    | .combInput => "CombInput"
    | .combOutput => "CombOutput"
    | .startPoint => "StartPoint"
    | .endPoint => "EndPoint"
    | .ignore => "Ignore"

inductive ClockEdge where
  | rising | falling
  deriving DecidableEq, Repr

instance : Word ClockEdge where
  all := [.rising, .falling]
  word
    | .rising => "Rising"
    | .falling => "Falling"

/-- The clock of a port, and its delays around the edge. -/
structure Clocking where
  clock : Symbol
  edge : ClockEdge
  setup : Delay
  hold : Delay
  clockToOutput : Delay
  deriving DecidableEq, Repr

/-- Equality by value. -/
def Clocking.equal (a b : Clocking) : Bool :=
  a.clock = b.clock && a.edge = b.edge && a.setup.equal b.setup && a.hold.equal b.hold &&
    a.clockToOutput.equal b.clockToOutput

end Fabric
