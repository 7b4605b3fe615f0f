import Fabric.Datum
import Fabric.Drawing
import Fabric.Json.Reader
import Fabric.Json.Writer
import Fabric.Strength
import Fabric.Timing
/-!
The JSON form of values. A structure is an object of its fields, and may also be given as a list of
them in order; a word may also be given as an object that maps it to null. Reading ignores unknown
names but takes no name twice.
-/

namespace Fabric

class Exchange (α : Type) where
  read : Datum → Option α
  write : α → String
  /-- Equality by value. -/
  equal : α → α → Bool

namespace Exchange

/-- Reads a text that holds exactly one value. -/
def parse (α : Type) [Exchange α] (written : String) : Option α := (Json.read written).bind read

/-! ## Numbers -/

def readWord32 : Datum → Option UInt32
  | .integer n => if 0 ≤ n ∧ n < UInt32.size then some n.toNat.toUInt32 else none
  | _ => none

def writeNat (n : Nat) : String := String.ofList (Nat.toDigits 10 n)

instance {k : Kind} : Exchange (Handle k) where
  read d := (readWord32 d).map (⟨·⟩)
  write h := writeNat h.index
  equal h h' := h = h'

instance : Exchange Symbol where
  read d := (readWord32 d).map (⟨·⟩)
  write x := writeNat x.index
  equal x y := x = y

instance : Exchange Number.Double where
  read
    | .integer n => some (.ofInt .double n)
    | .decimal x => some x
    | _ => none
  write := Json.writeDecimal
  equal := Number.Binary.equal

/-- An integer is rounded once, any other number twice, through a double. -/
instance : Exchange Number.Single where
  read
    | .integer n => some (.ofInt .single n)
    | .decimal x => some (x.convert .single)
    | _ => none
  write := Json.writeDecimal
  equal := Number.Binary.equal

/-! ## Texts and words -/

instance : Exchange String where
  read := Datum.asText?
  write := Json.writeText
  equal s t := s = t

def readWord (α : Type) [Word α] : Datum → Option α
  | .text s => Word.ofWord? s
  | .table [(s, .null)] => Word.ofWord? s
  | _ => none

instance {α : Type} [Word α] [DecidableEq α] : Exchange α where
  read := readWord α
  write a := Json.writeText (Word.word a)
  equal a b := a = b

/-! ## Structures -/

/-- Whether a name stands at most once. -/
def atMostOnce (name : String) (entries : List (String × Datum)) : Bool :=
  (entries.filter (·.1 = name)).length ≤ 1

/-- The fields of a structure in the order of their names. Those missing from an object are
nothing; a list must have them all. -/
def fieldsOf (names : List String) : Datum → Option (List (Option Datum))
  | .table entries =>
    if names.all (atMostOnce · entries) then some (names.map fun n => Datum.field? n entries)
    else none
  | .list items => if items.length = names.length then some (items.map some) else none
  | _ => none

def required {α : Type} [Exchange α] (field : Option Datum) : Option α := field.bind read

def optional {α : Type} [Exchange α] : Option Datum → Option (Option α)
  | none => some none
  | some .null => some none
  | some d => (read d).map some

def writeOptional {α : Type} [Exchange α] : Option α → String
  | none => "null"
  | some a => write a

instance : Exchange Delay where
  read d := do
    match ← fieldsOf ["min_ns", "typ_ns", "max_ns"] d with
    | [least, typical, greatest] =>
      some ⟨← required least, ← required typical, ← required greatest⟩
    | _ => none
  write d := Json.writeObject [("min_ns", write d.least), ("typ_ns", write d.typical),
    ("max_ns", write d.greatest)]
  equal := Delay.equal

instance : Exchange Clocking where
  read d := do
    match ← fieldsOf ["clock_port", "edge", "setup", "hold", "clock_to_q"] d with
    | [clock, edge, setup, hold, clockToOutput] =>
      some ⟨← required clock, ← required edge, ← required setup, ← required hold,
        ← required clockToOutput⟩
    | _ => none
  write c := Json.writeObject [("clock_port", write c.clock), ("edge", write c.edge),
    ("setup", write c.setup), ("hold", write c.hold), ("clock_to_q", write c.clockToOutput)]
  equal := Clocking.equal

instance : Exchange DecalPlace where
  read d := do
    match ← fieldsOf ["decal", "x", "y"] d with
    | [decal, x, y] => some ⟨← optional decal, ← required x, ← required y⟩
    | _ => none
  write p := Json.writeObject [("decal", writeOptional p.decal), ("x", write p.x), ("y", write p.y)]
  equal := DecalPlace.equal

instance : Exchange Shape where
  read d := do
    match ← fieldsOf ["kind", "style", "x1", "y1", "x2", "y2", "text"] d with
    | [kind, style, x1, y1, x2, y2, text] =>
      some ⟨← required kind, ← required style, ← required x1, ← required y1, ← required x2,
        ← required y2, ← required text⟩
    | _ => none
  write s := Json.writeObject [("kind", write s.kind), ("style", write s.style), ("x1", write s.x1),
    ("y1", write s.y1), ("x2", write s.x2), ("y2", write s.y2), ("text", write s.text)]
  equal := Shape.equal

end Exchange

end Fabric
