import Fabric.Toml.Value
/-!
TOML documents, of version 1.0 of the language: statements line by line, gathered into one table.
-/

namespace Fabric.Toml

/-- What has been read: all tables so far, and the path of the one that takes the next names. -/
structure Gathered where
  root : Entries
  path : List String

namespace Gathered

def empty : Gathered := ⟨[], []⟩

def define (g : Gathered) (p : Pair) : Option Gathered := do
  let root ← Entries.within (fun e => Entries.define true e p.name p.value p.path) g.root g.path
  some { g with root }

def openTable (g : Gathered) (parts : List String) : Option Gathered := do
  let name ← parts.getLast?
  let root ← Entries.within (Entries.openTable name) g.root parts.dropLast
  some ⟨root, parts⟩

def openElement (g : Gathered) (parts : List String) : Option Gathered := do
  let name ← parts.getLast?
  let root ← Entries.within (Entries.openElement name) g.root parts.dropLast
  some ⟨root, parts⟩

end Gathered

/-- Reads one statement, if the line has one. -/
def statement (g : Gathered) (cs : List Char) : Option (Gathered × List Char) :=
  match dropBlanks cs with
  | '[' :: '[' :: r => do
    let (parts, r) ← key r
    match r with
    | ']' :: ']' :: r =>
      let g ← g.openElement parts
      some (g, r)
    | _ => none
  | '[' :: r => do
    let (parts, r) ← key r
    match r with
    | ']' :: r =>
      let g ← g.openTable parts
      some (g, r)
    | _ => none
  | [] => some (g, [])
  | c :: r =>
    if c = '#' || c = '\n' || c = '\r' then some (g, c :: r)
    else do
      let (p, r) ← pair value (c :: r)
      let g ← g.define p
      some (g, r)

/-- Reads lines to the end of the text. Each takes at least one of the `fuel` characters. -/
def statements : Nat → Gathered → List Char → Option Gathered
  | 0, g, cs => if cs.isEmpty then some g else none
  | fuel + 1, g, cs =>
    if cs.isEmpty then some g
    else do
      let (g, r) ← statement g cs
      let r ← lineEnd? r
      statements fuel g r

/-- The table that a document holds. A byte order mark may stand first. -/
def read (document : String) : Option Datum :=
  let cs := match document.toList with
    | '\uFEFF' :: r => r
    | cs => cs
  (statements cs.length .empty cs).map fun g => .table (entriesToData g.root)

end Fabric.Toml
