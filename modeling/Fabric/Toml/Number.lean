import Fabric.Datum
import Fabric.Number.Decimal
import Fabric.Toml.Text
/-!
Numbers of a TOML document. Integers have 64 bits with a sign; a float is the nearest double, and
one too great is no number.
-/

namespace Fabric.Toml

/-- Digits after the first one. An underscore stands between two digits only. -/
def moreDigits (isDigit : Char → Bool) : List Char → List Char × List Char
  | '_' :: c :: r =>
    if isDigit c then
      let (ds, r) := moreDigits isDigit r
      (c :: ds, r)
    else ([], '_' :: c :: r)
  | c :: r =>
    if isDigit c then
      let (ds, r) := moreDigits isDigit r
      (c :: ds, r)
    else ([], c :: r)
  | [] => ([], [])

/-- One digit or more. -/
def digits (isDigit : Char → Bool) : Reader (List Char)
  | c :: r =>
    if isDigit c then
      let (ds, r) := moreDigits isDigit r
      some (c :: ds, r)
    else none
  | [] => none

/-- Decimal digits in which a zero does not lead others. -/
def wholeDigits : Reader (List Char)
  | '0' :: r => some (['0'], r)
  | cs => digits Char.isDigit cs

/-- An optional sign; the answer says whether it is a minus. -/
def sign : List Char → Bool × List Char
  | '+' :: r => (false, r)
  | '-' :: r => (true, r)
  | cs => (false, cs)

def checkInt64 (n : Int) : Option Datum :=
  if Int64.minValue.toInt ≤ n ∧ n ≤ Int64.maxValue.toInt then some (.integer n) else none

def isOctalDigit (c : Char) : Bool := '0' ≤ c && c ≤ '7'
def isBinaryDigit (c : Char) : Bool := c = '0' || c = '1'

/-- An integer; one in another base than ten has no sign. -/
def integer : Reader Datum
  | '0' :: 'x' :: r => based 16 isHexDigit r
  | '0' :: 'o' :: r => based 8 isOctalDigit r
  | '0' :: 'b' :: r => based 2 isBinaryDigit r
  | cs => do
    let (negative, r) := sign cs
    let (ds, r) ← wholeDigits r
    let n : Int := ofDigits 10 ds
    let v ← checkInt64 (if negative then -n else n)
    some (v, r)
where
  based (base : Nat) (isDigit : Char → Bool) (cs : List Char) : Option (Datum × List Char) := do
    let (ds, r) ← digits isDigit cs
    let v ← checkInt64 (ofDigits base ds)
    some (v, r)

/-- The fraction after a point. -/
def fractionPart : Reader (List Char)
  | '.' :: r => digits Char.isDigit r
  | _ => none

/-- The power of ten after its mark. -/
def exponentPart : Reader Int
  | c :: r => do
    guard (c = 'e' || c = 'E')
    let (negative, r) := sign r
    let (ds, r) ← digits Char.isDigit r
    let n : Int := ofDigits 10 ds
    some (if negative then -n else n, r)
  | [] => none

/-- Of the infinite results only the negative one is let through. -/
def signed (negative : Bool) (x : Number.Double) : Option Datum :=
  if negative then some (.decimal x.negate)
  else if x.isInfinite then none
  else some (.decimal x)

/-- A float has a fraction, a power of ten, or both. -/
def float (cs : List Char) : Option (Datum × List Char) := do
  let (negative, r) := sign cs
  let (whole, r) ← wholeDigits r
  let (fraction, s) := (fractionPart r).getD ([], r)
  let (exponent, t) := (exponentPart s).getD (0, s)
  guard (t.length < r.length)
  let d : Number.Decimal := ⟨ofDigits 10 (whole ++ fraction), exponent - fraction.length⟩
  let v ← signed negative (.ofDecimal .double d)
  some (v, t)

def special (cs : List Char) : Option (Datum × List Char) :=
  let (negative, r) := sign cs
  match r with
  | 'i' :: 'n' :: 'f' :: r => some (.decimal { Number.Binary.infinite .double with negative }, r)
  | 'n' :: 'a' :: 'n' :: r => some (.decimal { Number.Binary.notANumber .double with negative }, r)
  | _ => none

end Fabric.Toml
