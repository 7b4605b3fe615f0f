import Fabric.Datum
import Fabric.Toml.Text
/-!
Dates and times of a TOML document, read and put into their normal writing.
-/

namespace Fabric.Toml

/-- Exactly `n` decimal digits. -/
def fixedDigits (n : Nat) : Reader Nat := fun cs =>
  let ds := cs.take n
  if ds.length = n && ds.all Char.isDigit then some (ofDigits 10 ds, cs.drop n) else none

def padded (width n : Nat) : String := String.ofList (paddedDigits 10 width n)

def isLeapYear (y : Nat) : Bool := y % 4 = 0 && (y % 100 ≠ 0 || y % 400 = 0)

def daysInMonth (year month : Nat) : Nat :=
  if month = 2 then (if isLeapYear year then 29 else 28)
  else if month = 4 || month = 6 || month = 9 || month = 11 then 30
  else 31

/-- Takes a given character. -/
def mark (c : Char) : Reader Unit
  | d :: r => if d = c then some ((), r) else none
  | [] => none

def date (cs : List Char) : Option (String × List Char) := do
  let (year, r) ← fixedDigits 4 cs
  let (_, r) ← mark '-' r
  let (month, r) ← fixedDigits 2 r
  let (_, r) ← mark '-' r
  let (day, r) ← fixedDigits 2 r
  guard (1 ≤ month && month ≤ 12 && 1 ≤ day && day ≤ daysInMonth year month)
  some (s!"{padded 4 year}-{padded 2 month}-{padded 2 day}", r)

/-- The fraction of a second is kept to nine digits and written without its last zeros. -/
def secondFraction : List Char → String × List Char
  | '.' :: r =>
    let ds := r.takeWhile Char.isDigit
    if ds.isEmpty then ("", '.' :: r)
    else
      let kept := ((ds.take 9).reverse.dropWhile (· = '0')).reverse
      (if kept.isEmpty then "" else String.ofList ('.' :: kept), r.drop ds.length)
  | cs => ("", cs)

/-- A minute may have a leap second. -/
def time (cs : List Char) : Option (String × List Char) := do
  let (hour, r) ← fixedDigits 2 cs
  let (_, r) ← mark ':' r
  let (minute, r) ← fixedDigits 2 r
  let (_, r) ← mark ':' r
  let (second, r) ← fixedDigits 2 r
  guard (hour ≤ 23 && minute ≤ 59 && second ≤ 60)
  let (fraction, r) := secondFraction r
  some (s!"{padded 2 hour}:{padded 2 minute}:{padded 2 second}{fraction}", r)

/-- The distance from universal time. A distance of zero is written with a plus. -/
def zone : List Char → Option (String × List Char)
  | 'Z' :: r | 'z' :: r => some ("Z", r)
  | c :: r => do
    guard (c = '+' || c = '-')
    let (hour, r) ← fixedDigits 2 r
    let (_, r) ← mark ':' r
    let (minute, r) ← fixedDigits 2 r
    guard (hour ≤ 23 && minute ≤ 59)
    let mark := if c = '-' && (hour ≠ 0 || minute ≠ 0) then "-" else "+"
    some (s!"{mark}{padded 2 hour}:{padded 2 minute}", r)
  | [] => none

/-- The time of day after a date, and its zone. -/
def dayTime : List Char → Option (String × List Char)
  | c :: r => do
    guard (c = 'T' || c = 't' || c = ' ')
    let (t, r) ← time r
    match zone r with
    | some (z, r) => some (s!"T{t}{z}", r)
    | none => some (s!"T{t}", r)
  | [] => none

/-- A date, a date with a time of day, or a time of day alone. -/
def moment (cs : List Char) : Option (Datum × List Char) :=
  match date cs with
  | some (d, r) =>
    match dayTime r with
    | some (t, r) => some (.moment (d ++ t), r)
    | none => some (.moment d, r)
  | none => (time cs).map fun (t, r) => (.moment t, r)

end Fabric.Toml
