import Fabric.Number.Decimal
/-!
Shortest decimals. Of the decimals that round to a binary number the ones with the fewest digits
are wanted, and of those the nearest. The search walks the decimal grids from the coarsest on and
tries the two neighbours of the number on each.
-/

namespace Fabric.Number

/-- A positive number and the halfway points to its neighbours, as multiples of one unit. -/
structure Span where
  low : Nat
  value : Nat
  high : Nat
  /-- The unit is `num / den`. -/
  num : Nat
  den : Nat
  /-- Whether the halfway points themselves round to the number. -/
  closed : Bool
  deriving Repr

namespace Span

/-- Below a power of two the gap is half as wide as above, unless the scale is the least one. -/
def of {f : Format} (x : Binary f) : Span :=
  let m := x.significand
  let narrow := x.fraction = 0 ∧ 1 < x.exponentField
  let unitScale := x.scale - 2
  ⟨4 * m - (if narrow then 1 else 2), 4 * m, 4 * m + 2,
    if unitScale < 0 then 1 else 1 <<< unitScale.natAbs,
    if unitScale < 0 then 1 <<< unitScale.natAbs else 1,
    m % 2 = 0⟩

/-- The step `10 ^ exponent` of a decimal grid over the unit, as a fraction. -/
def step (s : Span) (exponent : Int) : Nat × Nat :=
  if exponent < 0 then (s.den, s.num * Nat.pow 10 exponent.natAbs)
  else (s.den * Nat.pow 10 exponent.natAbs, s.num)

/-- Whether the `n`-th point of the grid rounds to the number. -/
def admits (s : Span) (exponent : Int) (n : Nat) : Bool :=
  let (a, b) := s.step exponent
  if s.closed then s.low * b ≤ n * a && n * a ≤ s.high * b
  else s.low * b < n * a && n * a < s.high * b

/-- The better of the two neighbours of the number on a grid; of two equally near ones the even. -/
def onGrid (s : Span) (exponent : Int) : Option Nat :=
  let (a, b) := s.step exponent
  let n := s.value * b / a
  match s.admits exponent n, s.admits exponent (n + 1) with
  | false, false => none
  | true, false => some n
  | false, true => some (n + 1)
  | true, true =>
    let twice := 2 * s.value * b
    let middle := (2 * n + 1) * a
    if twice < middle then some n
    else if middle < twice then some (n + 1)
    else some (n + n % 2)

/-- The exponent of the first digit of the number, from an estimate at most `fuel` too great. -/
def leadingFrom (s : Span) : Nat → Int → Int
  | 0, e => e
  | fuel + 1, e =>
    let (a, b) := s.step e
    if s.value * b < a then s.leadingFrom fuel (e - 1) else e

/-- An estimate from the binary logarithm, never below the exponent of the first digit. -/
def leading (s : Span) : Int :=
  let binary : Int := (s.value * s.num).log2 - s.den.log2
  s.leadingFrom 4 ((binary + 1) * 30103 / 100000 + 2)

/-- Tries grids from the exponent `e` downwards; the last one is taken as it comes. -/
def search (s : Span) : Nat → Int → Decimal
  | 0, e =>
    let (a, b) := s.step e
    ⟨s.value * b / a, e⟩
  | fuel + 1, e =>
    match s.onGrid e with
    | some n => ⟨n, e⟩
    | none => s.search fuel (e - 1)

end Span

/-- The shortest decimal of a finite number, its sign aside. -/
def Binary.shortest {f : Format} (x : Binary f) : Decimal :=
  if x.isZero then ⟨0, 0⟩
  else
    let s := Span.of x
    (s.search 17 s.leading).strip 20

end Fabric.Number
