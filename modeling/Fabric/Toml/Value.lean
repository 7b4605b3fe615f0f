import Fabric.Toml.Number
import Fabric.Toml.Moment
import Fabric.Toml.Section
/-!
Values of a TOML document. Lists and inline tables nest to a bounded depth; a list may run over
many lines, an inline table stands on one.
-/

namespace Fabric.Toml

def number (cs : List Char) : Option (Datum × List Char) :=
  moment cs <|> float cs <|> special cs <|> integer cs

/-- A value that holds no others. -/
def scalar : Reader Datum
  | 't' :: 'r' :: 'u' :: 'e' :: r => some (.boolean true, r)
  | 'f' :: 'a' :: 'l' :: 's' :: 'e' :: r => some (.boolean false, r)
  | c :: r =>
    if c = '"' || c = '\'' then (quoted (c :: r)).map fun (s, r) => (.text s, r)
    else number (c :: r)
  | [] => none

/-- The elements of a list after its opening bracket. A comma may follow the last one. Each element
takes at least one of the `fuel` characters. -/
def elements (item : Reader Datum) : Nat → Reader (List Datum)
  | 0, _ => none
  | fuel + 1, cs =>
    match dropFiller cs with
    | ']' :: r => some ([], r)
    | cs => do
      let (v, r) ← item cs
      match dropFiller r with
      | ',' :: r =>
        let (vs, r) ← elements item fuel r
        some (v :: vs, r)
      | ']' :: r => some ([v], r)
      | _ => none

/-- A key and its value; the last part of the key is the name. -/
structure Pair where
  path : List String
  name : String
  value : Datum

def pair (item : Reader Datum) (cs : List Char) : Option (Pair × List Char) := do
  let (parts, r) ← key cs
  let name ← parts.getLast?
  match r with
  | '=' :: r =>
    let (v, r) ← item (dropBlanks r)
    some (⟨parts.dropLast, name, v⟩, r)
  | _ => none

/-- The pairs of an inline table that is not empty. -/
def pairs (item : Reader Datum) : Nat → Reader (List Pair)
  | 0, _ => none
  | fuel + 1, cs => do
    let (p, r) ← pair item cs
    match dropBlanks r with
    | ',' :: r =>
      let (ps, r) ← pairs item fuel r
      some (p :: ps, r)
    | '}' :: r => some ([p], r)
    | _ => none

/-- An inline table after its opening brace. -/
def inlineTable (item : Reader Datum) (cs : List Char) : Option (Datum × List Char) :=
  match dropBlanks cs with
  | '}' :: r => some (.table [], r)
  | _ => do
    let (ps, r) ← pairs item cs.length cs
    let entries ← ps.foldlM (fun e p => Entries.define true e p.name p.value p.path) []
    some (.table (entriesToData entries), r)

/-- A value in which lists and inline tables nest at most `levels` deep. -/
def nested : (levels : Nat) → Reader Datum
  | levels + 1, '[' :: r => do
    let (vs, r) ← elements (nested levels) (r.length + 1) r
    some (.list vs, r)
  | levels + 1, '{' :: r => inlineTable (nested levels) r
  | _, cs => scalar cs

/-- The depth to which values nest. -/
def depth : Nat := 79

def value : Reader Datum := nested depth

end Fabric.Toml
