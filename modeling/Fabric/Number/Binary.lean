/-!
Binary floating numbers by their bits: a sign, a biased exponent and a fraction. Every operation
is exact arithmetic on naturals followed by one rounding to the nearest number of the format, ties
to the even one.
-/

namespace Fabric.Number

/-- The widths of the fraction and of the exponent of a binary format. -/
structure Format where
  fractionBits : Nat
  exponentBits : Nat
  deriving DecidableEq, Repr

namespace Format

def double : Format := ⟨52, 11⟩
def single : Format := ⟨23, 8⟩

/-- The exponent of the unit of the smallest numbers of the format. -/
def leastScale (f : Format) : Int :=
  2 - (1 <<< (f.exponentBits - 1) : Nat) - f.fractionBits

/-- The exponent field of infinities and of what is not a number. -/
def topField (f : Format) : Nat := 1 <<< f.exponentBits - 1

end Format

structure Binary (f : Format) where
  negative : Bool
  /-- The bits below the sign: the exponent field above the fraction. -/
  magnitude : Nat
  deriving DecidableEq, Repr

abbrev Double := Binary .double
abbrev Single := Binary .single

namespace Binary

variable {f : Format}

def ofBits (f : Format) (n : Nat) : Binary f :=
  let below := 1 <<< (f.fractionBits + f.exponentBits)
  ⟨n / below % 2 = 1, n % below⟩

def bits (x : Binary f) : Nat :=
  (if x.negative then 1 <<< (f.fractionBits + f.exponentBits) else 0) + x.magnitude

def zero : Binary f := ⟨false, 0⟩

instance : Inhabited (Binary f) := ⟨zero⟩

/-- The magnitude of an infinity; every greater one is not a number. -/
def infiniteMagnitude (f : Format) : Nat := f.topField <<< f.fractionBits

def infinite (f : Format) : Binary f := ⟨false, infiniteMagnitude f⟩

/-- What is not a number, in its usual form. -/
def notANumber (f : Format) : Binary f := ⟨false, infiniteMagnitude f + 1 <<< (f.fractionBits - 1)⟩

def isNaN (x : Binary f) : Bool := infiniteMagnitude f < x.magnitude

def isInfinite (x : Binary f) : Bool := x.magnitude = infiniteMagnitude f

def isZero (x : Binary f) : Bool := x.magnitude = 0

def negate (x : Binary f) : Binary f := { x with negative := !x.negative }

/-- Equality of the numbers: what is not a number differs from itself, and the zeros are equal. -/
def equal (x y : Binary f) : Bool :=
  !x.isNaN && !y.isNaN && (x = y || (x.isZero && y.isZero))

def exponentField (x : Binary f) : Nat := x.magnitude >>> f.fractionBits

def fraction (x : Binary f) : Nat := x.magnitude % 1 <<< f.fractionBits

/-- The significand of a finite number, as a multiple of `2 ^ scale`. -/
def significand (x : Binary f) : Nat :=
  if x.exponentField = 0 then x.fraction else 1 <<< f.fractionBits + x.fraction

def scale (x : Binary f) : Int := f.leastScale + (x.exponentField - 1 : Nat)

/-! ## Rounding -/

/-- The quotient rounded to the nearest natural, a half to the even one. -/
def roundDiv (num den : Nat) : Nat :=
  let q := num / den
  let r := num % den
  if 2 * r < den then q
  else if den < 2 * r then q + 1
  else q + q % 2

/-- `num / den` in units of `2 ^ scale`, as a fraction. -/
def atScale (num den : Nat) (scale : Int) : Nat × Nat :=
  if scale < 0 then (num <<< scale.natAbs, den) else (num, den <<< scale.natAbs)

/-- The least scale at which the quotient has no more digits than the format keeps. -/
def scaleOf (f : Format) (num den : Nat) : Int :=
  let guess : Int := (num.log2 : Int) - den.log2 - f.fractionBits - 1
  let (n, d) := atScale num den guess
  let scale := if n < d <<< (f.fractionBits + 1) then guess else guess + 1
  max scale f.leastScale

/-- The number of the format nearest to a quotient of naturals, infinite when the quotient is too
great. A significand that rounds up to the next power of two carries into the exponent field. -/
def ofRatio (f : Format) (num den : Nat) : Binary f :=
  if num = 0 then zero else
  let scale := scaleOf f num den
  let (n, d) := atScale num den scale
  let field := (scale - f.leastScale).toNat
  ⟨false, min (infiniteMagnitude f) (field <<< f.fractionBits + roundDiv n d)⟩

def ofNat (f : Format) (n : Nat) : Binary f := ofRatio f n 1

def ofInt (f : Format) (n : Int) : Binary f :=
  { ofNat f n.natAbs with negative := n < 0 }

/-- The value of a finite number without its sign, as a fraction. -/
def ratio (x : Binary f) : Nat × Nat :=
  if x.scale < 0 then (x.significand, 1 <<< x.scale.natAbs)
  else (x.significand <<< x.scale.natAbs, 1)

/-- The product of two finite numbers. -/
def mul (x y : Binary f) : Binary f :=
  let (a, b) := x.ratio
  let (c, d) := y.ratio
  { ofRatio f (a * c) (b * d) with negative := x.negative != y.negative }

/-- The quotient of two finite numbers, the second not zero. -/
def div (x y : Binary f) : Binary f :=
  let (a, b) := x.ratio
  let (c, d) := y.ratio
  { ofRatio f (a * d) (b * c) with negative := x.negative != y.negative }

/-- The nearest number of another format. An infinity stays one. -/
def convert (g : Format) (x : Binary f) : Binary g :=
  if x.isInfinite then { infinite g with negative := x.negative }
  else
    let (a, b) := x.ratio
    { ofRatio g a b with negative := x.negative }

end Binary

end Fabric.Number
