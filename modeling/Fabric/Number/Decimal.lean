import Fabric.Digit
import Fabric.Number.Binary
/-!
Decimals: a natural times a power of ten, the nearest binary number to one, and the text of one.
-/

namespace Fabric.Number

/-- The decimal `digits * 10 ^ exponent`. -/
structure Decimal where
  digits : Nat
  exponent : Int
  deriving DecidableEq, Repr

namespace Decimal

/-- The number of digits of a natural; zero has one. -/
def lengthOf (n : Nat) : Nat := (Nat.toDigits 10 n).length

/-- Trailing zeros move from the digits into the exponent; at most `fuel` of them. -/
def strip : Nat → Decimal → Decimal
  | 0, d => d
  | fuel + 1, d =>
    if d.digits ≠ 0 ∧ d.digits % 10 = 0 then strip fuel ⟨d.digits / 10, d.exponent + 1⟩ else d

/-- The exponent of the first digit. -/
def leading (d : Decimal) : Int := d.exponent + lengthOf d.digits - 1

end Decimal

/-- The number of a format nearest to a decimal. Decimals with a first digit far beyond the format
are infinite or zero. -/
def Binary.ofDecimal (f : Format) (d : Decimal) : Binary f :=
  let bound : Int := (1 <<< f.exponentBits : Nat)
  if d.digits = 0 ∨ d.leading < -bound then zero
  else if bound < d.leading then infinite f
  else if d.exponent < 0 then ofRatio f d.digits (Nat.pow 10 d.exponent.natAbs)
  else ofNat f (d.digits * Nat.pow 10 d.exponent.natAbs)

/-! ## Writing -/

/-- The exponents of a first digit for which all places are written out. -/
structure PlainRange where
  least : Int
  greatest : Int
  deriving DecidableEq, Repr

namespace PlainRange

/-- A number written out always has a fraction; an exponent always has a sign. -/
def render (range : PlainRange) (d : Decimal) : String :=
  let cs := Nat.toDigits 10 d.digits
  let e := d.leading
  if e < range.least ∨ range.greatest < e then
    let mantissa := match cs with
      | c :: c' :: r => c :: '.' :: c' :: r
      | cs => cs
    String.ofList (mantissa ++ 'e' :: (if e < 0 then '-' else '+') :: Nat.toDigits 10 e.natAbs)
  else if e < 0 then
    String.ofList ('0' :: '.' :: List.replicate (e.natAbs - 1) '0' ++ cs)
  else
    let places := e.toNat + 1
    let whole := cs.take places
    let rest := cs.drop places
    String.ofList (whole ++ List.replicate (places - whole.length) '0' ++
      '.' :: (if rest.isEmpty then ['0'] else rest))

end PlainRange

end Fabric.Number
