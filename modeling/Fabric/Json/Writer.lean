import Fabric.Digit
import Fabric.Number.Shortest
/-!
JSON texts, written without blanks.
-/

namespace Fabric.Json

/-- A character inside a text. Control characters are escaped, by number if they have no letter. -/
def escape (c : Char) : List Char :=
  match c with
  | '"' => ['\\', '"']
  | '\\' => ['\\', '\\']
  | '\x08' => ['\\', 'b']
  | '\x0c' => ['\\', 'f']
  | '\n' => ['\\', 'n']
  | '\r' => ['\\', 'r']
  | '\t' => ['\\', 't']
  | c => if c.toNat < 0x20 then '\\' :: 'u' :: paddedDigits 16 4 c.toNat else [c]

def writeText (s : String) : String := String.ofList ('"' :: s.toList.flatMap escape ++ ['"'])

def enclose (left right : Char) (parts : List String) : String :=
  String.ofList (left :: (",".intercalate parts).toList ++ [right])

/-- An object with its members in the order given. -/
def writeObject (members : List (String × String)) : String :=
  enclose '{' '}' (members.map fun (name, v) => writeText name ++ ":" ++ v)

/-- Where numbers of a format are written out, all places of them. -/
class Plain (f : Number.Format) where
  range : Number.PlainRange

instance : Plain .double := ⟨-5, 15⟩
instance : Plain .single := ⟨-6, 12⟩

/-- The shortest decimal of a number. What has no decimal is null. -/
def writeDecimal {f : Number.Format} [Plain f] (x : Number.Binary f) : String :=
  if x.isNaN || x.isInfinite then "null"
  else (if x.negative then "-" else "") ++ (Plain.range f).render x.shortest

end Fabric.Json
