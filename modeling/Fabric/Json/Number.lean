import Fabric.Datum
import Fabric.Json.Text
/-!
Numbers in JSON. Integers of 64 bits are kept; any other number becomes a double in two roundings,
of its first digits and of a power of ten, and so may differ from the nearest one in the last place.
-/

namespace Fabric.Json

/-- Digits go into the significand as long as it has 64 bits; from the first one that does not fit
on they are left over. -/
def significand (n : Nat) : List Char → Nat × Nat
  | [] => (n, 0)
  | d :: r =>
    let next := n * 10 + digitValue d
    if next < UInt64.size then significand next r else (n, r.length + 1)

/-- Multiplies by a power of ten, nothing if the product is infinite. Powers beyond the greatest
one of the format are applied in steps. -/
def scaleByTen (x : Number.Double) (exponent : Int) : Option Number.Double :=
  let power (n : Nat) : Number.Double := .ofNat .double (Nat.pow 10 n)
  if exponent.natAbs ≤ 308 then
    if exponent < 0 then some (x.div (power exponent.natAbs))
    else
      let y := x.mul (power exponent.natAbs)
      if y.isInfinite then none else some y
  else if x.isZero then some x
  else if 0 ≤ exponent then none
  else scaleByTen (x.div (power 308)) (exponent + 308)
termination_by exponent.natAbs
decreasing_by omega

/-- The parts of a number as written. -/
structure Numeral where
  negative : Bool
  whole : List Char
  fraction : List Char
  exponent : Option Int

/-- Left over digits before the point still count as places. -/
def Numeral.double? (n : Numeral) : Option Number.Double := do
  let (s, left) := significand 0 n.whole
  let (s, lost) := significand s n.fraction
  let places : Int := left - (n.fraction.length - lost : Nat)
  let x ← scaleByTen (.ofNat .double s) (places + n.exponent.getD 0)
  some { x with negative := n.negative }

/-- A number without fraction and exponent that fits into 64 bits is an integer, except minus
zero. -/
def Numeral.toDatum (n : Numeral) : Datum :=
  let value := ofDigits 10 n.whole
  let integral := n.fraction.isEmpty && n.exponent.isNone
  if integral && !n.negative && value < UInt64.size then .integer value
  else if integral && n.negative && 0 < value && value ≤ UInt64.size / 2 then .integer (-value)
  else
    match n.double? with
    | some x => .decimal x
    | none => .unreadable

/-- One decimal digit or more. -/
def digits (cs : List Char) : Option (List Char × List Char) :=
  let ds := cs.takeWhile Char.isDigit
  if ds.isEmpty then none else some (ds, cs.drop ds.length)

/-- The digits before the point, in which a zero does not lead others. -/
def wholeDigits (cs : List Char) : Option (List Char × List Char) := do
  let (ds, r) ← digits cs
  guard (ds = ['0'] || ds.head? ≠ some '0')
  some (ds, r)

def sign : List Char → Bool × List Char
  | '-' :: r => (true, r)
  | cs => (false, cs)

def fractionPart : Reader (List Char)
  | '.' :: r => digits r
  | cs => some ([], cs)

def exponentPart : Reader (Option Int)
  | c :: r =>
    if c = 'e' || c = 'E' then do
      let (negative, r) := match r with
        | '+' :: r => (false, r)
        | r => sign r
      let (ds, r) ← digits r
      let n : Int := ofDigits 10 ds
      some (some (if negative then -n else n), r)
    else some (none, c :: r)
  | [] => some (none, [])

def number (cs : List Char) : Option (Datum × List Char) := do
  let (negative, r) := sign cs
  let (whole, r) ← wholeDigits r
  let (fraction, r) ← fractionPart r
  let (exponent, r) ← exponentPart r
  some (Numeral.toDatum { negative, whole, fraction, exponent }, r)

end Fabric.Json
