import Fabric.Digit
/-!
Texts in JSON. An escape by number writes one code unit of 16 bits, so that some characters take a
pair of escapes. A reader takes what it reads off the front of the text, or fails.
-/

namespace Fabric.Json

abbrev Reader (α : Type) := List Char → Option (α × List Char)

/-- The character that a backslash and one letter stand for. -/
def escaped? : Char → Option Char
  | '"' => some '"'
  | '\\' => some '\\'
  | '/' => some '/'
  | 'b' => some '\x08'
  | 'f' => some '\x0c'
  | 'n' => some '\n'
  | 'r' => some '\r'
  | 't' => some '\t'
  | _ => none

/-- The numbers of the characters of a text, after its opening quote. An escape by number may give
half of a pair of code units. -/
def codes : Reader (List Nat)
  | [] => none
  | '"' :: r => some ([], r)
  | '\\' :: 'u' :: a :: b :: c :: d :: r => do
    guard ([a, b, c, d].all isHexDigit)
    let (ns, r) ← codes r
    some (hexValue [a, b, c, d] :: ns, r)
  | '\\' :: e :: r => do
    let c ← escaped? e
    let (ns, r) ← codes r
    some (c.toNat :: ns, r)
  | c :: r => do
    guard (0x20 ≤ c.toNat && c ≠ '\\')
    let (ns, r) ← codes r
    some (c.toNat :: ns, r)

def isHighHalf (n : Nat) : Bool := 0xD800 ≤ n && n < 0xDC00
def isLowHalf (n : Nat) : Bool := 0xDC00 ≤ n && n < 0xE000

/-- Joins the halves of pairs; a half alone is no character. -/
def joinPairs : List Nat → Option (List Char)
  | [] => some []
  | n :: m :: r =>
    if isHighHalf n && isLowHalf m then
      (joinPairs r).map (Char.ofNat (0x10000 + (n - 0xD800) * 0x400 + (m - 0xDC00)) :: ·)
    else if isHighHalf n || isLowHalf n then none
    else (joinPairs (m :: r)).map (Char.ofNat n :: ·)
  | [n] => if isHighHalf n || isLowHalf n then none else some [Char.ofNat n]

/-- A text after its opening quote; nothing in its place if half a pair stands alone. -/
def text (cs : List Char) : Option (Option String × List Char) := do
  let (ns, r) ← codes cs
  some ((joinPairs ns).map String.ofList, r)

end Fabric.Json
