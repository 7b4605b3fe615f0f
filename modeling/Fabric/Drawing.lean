import Fabric.Handle
import Fabric.Number.Binary
import Fabric.Word
/-!
Drawings of device resources: decals, where they are placed, and the shapes that they consist of.
-/

namespace Fabric

open Number

/-- A decal, if there is one, and where it is drawn. -/
structure DecalPlace where
  decal : Option Decal
  x : Single
  y : Single
  deriving DecidableEq, Repr

namespace DecalPlace

/-- Draws nothing. -/
def nothing : DecalPlace := ⟨none, .zero, .zero⟩

instance : Inhabited DecalPlace := ⟨nothing⟩

def equal (a b : DecalPlace) : Bool := a.decal = b.decal && a.x.equal b.x && a.y.equal b.y

end DecalPlace

inductive ShapeKind where
  | line | arrow | box | circle | label
  deriving DecidableEq, Repr

instance : Word ShapeKind where
  all := [.line, .arrow, .box, .circle, .label]
  word
    | .line => "Line"
    | .arrow => "Arrow"
    | .box => "Box"
    | .circle => "Circle"
    | .label => "Label"

inductive ShapeStyle where
  | hidden | frame | inactive | active
  deriving DecidableEq, Repr

instance : Word ShapeStyle where
  all := [.hidden, .frame, .inactive, .active]
  word
    | .hidden => "Hidden"
    | .frame => "Frame"
    | .inactive => "Inactive"
    | .active => "Active"

/-- One shape of a decal, between two points, with a text for labels. -/
structure Shape where
  kind : ShapeKind
  style : ShapeStyle
  x1 : Single
  y1 : Single
  x2 : Single
  y2 : Single
  text : String
  deriving DecidableEq, Repr

def Shape.equal (a b : Shape) : Bool :=
  a.kind = b.kind && a.style = b.style && a.x1.equal b.x1 && a.y1.equal b.y1 && a.x2.equal b.x2 &&
    a.y2.equal b.y2 && a.text = b.text

end Fabric
