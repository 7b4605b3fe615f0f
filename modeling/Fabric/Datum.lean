import Fabric.Number.Binary
/-!
Structured data, the common form of what is read from a TOML document or a JSON text.
-/

namespace Fabric

inductive Datum where
  | null
  | boolean (b : Bool)
  | integer (n : Int)
  | decimal (x : Number.Double)
  | text (s : String)
  /-- A date, a time or both, in their normal writing. -/
  | moment (written : String)
  /-- A value that is well written and yet has no meaning: a number out of range, or a text with
  half of a pair of code units. It does no harm where nobody looks at it. -/
  | unreadable
  | list (items : List Datum)
  | table (entries : List (String × Datum))
  deriving Repr, Inhabited

namespace Datum

/-- The value of a name in a list of named values. -/
def field? (name : String) : List (String × Datum) → Option Datum
  | [] => none
  | (k, v) :: r => if k = name then some v else field? name r

/-- The name under which a moment stands when it is read as a table of texts. -/
def momentKey : String := "$__toml_private_datetime"

def asText? : Datum → Option String
  | text s => some s
  | _ => none

def asBool? : Datum → Option Bool
  | boolean b => some b
  | _ => none

end Datum

end Fabric
