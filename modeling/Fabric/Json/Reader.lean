import Fabric.Json.Number
/-!
JSON texts, read strictly: one value, nothing after it. Numbers out of range and texts with half a
pair of code units are read as unreadable values, and so is an object with such a name.
-/

namespace Fabric.Json

def isBlank (c : Char) : Bool := c = ' ' || c = '\t' || c = '\n' || c = '\r'

def dropBlanks (cs : List Char) : List Char := cs.dropWhile isBlank

/-- A value that holds no others. -/
def scalar : Reader Datum
  | 'n' :: 'u' :: 'l' :: 'l' :: r => some (.null, r)
  | 't' :: 'r' :: 'u' :: 'e' :: r => some (.boolean true, r)
  | 'f' :: 'a' :: 'l' :: 's' :: 'e' :: r => some (.boolean false, r)
  | '"' :: r => (text r).map fun (t, r) => (t.elim .unreadable .text, r)
  | cs => number cs

/-- The elements of a list that has some, after its opening bracket. -/
def elements (item : Reader Datum) : Nat → Reader (List Datum)
  | 0, _ => none
  | fuel + 1, cs => do
    let (v, r) ← item (dropBlanks cs)
    match dropBlanks r with
    | ',' :: r =>
      let (vs, r) ← elements item fuel r
      some (v :: vs, r)
    | ']' :: r => some ([v], r)
    | _ => none

def list (item : Reader Datum) (cs : List Char) : Option (Datum × List Char) :=
  match dropBlanks cs with
  | ']' :: r => some (.list [], r)
  | cs => (elements item cs.length cs).map fun (vs, r) => (.list vs, r)

/-- The members of an object that has some, after its opening brace. -/
def members (item : Reader Datum) : Nat → Reader (List (Option String × Datum))
  | 0, _ => none
  | fuel + 1, cs =>
    match dropBlanks cs with
    | '"' :: r => do
      let (name, r) ← text r
      match dropBlanks r with
      | ':' :: r =>
        let (v, r) ← item (dropBlanks r)
        match dropBlanks r with
        | ',' :: r =>
          let (ms, r) ← members item fuel r
          some ((name, v) :: ms, r)
        | '}' :: r => some ([(name, v)], r)
        | _ => none
      | _ => none
    | _ => none

/-- An object whose names are all readable. -/
def ofMembers (ms : List (Option String × Datum)) : Datum :=
  match ms.mapM fun (name, v) => name.map fun n => (n, v) with
  | some entries => .table entries
  | none => .unreadable

def object (item : Reader Datum) (cs : List Char) : Option (Datum × List Char) :=
  match dropBlanks cs with
  | '}' :: r => some (.table [], r)
  | cs => (members item cs.length cs).map fun (ms, r) => (ofMembers ms, r)

/-- A value in which lists and objects nest at most `levels` deep. -/
def nested : (levels : Nat) → Reader Datum
  | levels + 1, '[' :: r => list (nested levels) r
  | levels + 1, '{' :: r => object (nested levels) r
  | _, cs => scalar cs

/-- The value that a text holds. No text nests deeper than it is long. -/
def read (written : String) : Option Datum := do
  let cs := written.toList
  let (v, r) ← nested cs.length (dropBlanks cs)
  guard (dropBlanks r).isEmpty
  some v

end Fabric.Json
