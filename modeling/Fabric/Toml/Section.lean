import Fabric.Datum
/-!
Sections: the tables of a TOML document while it is being read. A name stands for one value; a
table that a header or an inline table has opened is closed to dotted keys from elsewhere, and a
table that exists only because something inside it was named may still get its header.
-/

namespace Fabric.Toml

/-- How a table came to be. -/
inductive Origin where
  /-- By a header of its own, or as an element of a list of tables. -/
  | header
  /-- By the header of a table inside it. -/
  | implied
  /-- By a dotted key. -/
  | dotted
  deriving DecidableEq, Repr

inductive Node where
  | value (d : Datum)
  | table (origin : Origin) (entries : List (String × Node))
  | tables (elements : List (List (String × Node)))
  deriving Inhabited

abbrev Entries := List (String × Node)

namespace Entries

def get? (name : String) : Entries → Option Node
  | [] => none
  | (k, v) :: r => if k = name then some v else get? name r

/-- Replaces the node of a name, or appends it. -/
def put (name : String) (node : Node) : Entries → Entries
  | [] => [(name, node)]
  | (k, v) :: r => if k = name then (k, node) :: r else (k, v) :: put name node r

/-- Applies a change to the last element of a list of tables. -/
def changeLast (change : Entries → Option Entries) : List Entries → Option (List Entries)
  | [] => none
  | [e] => (change e).map fun e => [e]
  | e :: r => (changeLast change r).map (e :: ·)

/-- Gives a name its value. Dotted parts before the name open tables on the way. `here` says
whether the table itself takes names: the current one does, and any that a dotted key made. -/
def define (here : Bool) (entries : Entries) (name : String) (d : Datum) :
    List String → Option Entries
  | [] => if here && (entries.get? name).isNone then some (entries.put name (.value d)) else none
  | part :: path =>
    match entries.get? part with
    | none => do
      let inner ← define true [] name d path
      some (entries.put part (.table .dotted inner))
    | some (.table .header _) => none
    | some (.table origin inner) => do
      let inner ← define (origin = .dotted) inner name d path
      some (entries.put part (.table origin inner))
    | some (.tables elements) => do
      let elements ← changeLast (fun e => define false e name d path) elements
      some (entries.put part (.tables elements))
    | some (.value _) => none

/-- Applies a change to the table that a header's path leads to, implied tables on the way. -/
def within (change : Entries → Option Entries) (entries : Entries) : List String → Option Entries
  | [] => change entries
  | part :: path =>
    match entries.get? part with
    | none => do
      let inner ← within change [] path
      some (entries.put part (.table .implied inner))
    | some (.table origin inner) => do
      let inner ← within change inner path
      some (entries.put part (.table origin inner))
    | some (.tables elements) => do
      let elements ← changeLast (fun e => within change e path) elements
      some (entries.put part (.tables elements))
    | some (.value _) => none

/-- Opens a table by its header, once. -/
def openTable (name : String) (entries : Entries) : Option Entries :=
  match entries.get? name with
  | none => some (entries.put name (.table .header []))
  | some (.table .implied inner) => some (entries.put name (.table .header inner))
  | some _ => none

/-- Appends a table to a list of tables. -/
def openElement (name : String) (entries : Entries) : Option Entries :=
  match entries.get? name with
  | none => some (entries.put name (.tables [[]]))
  | some (.tables elements) => some (entries.put name (.tables (elements ++ [[]])))
  | some _ => none

end Entries

/-! ## The finished document -/

mutual

def Node.toDatum : Node → Datum
  | .value d => d
  | .table _ entries => .table (entriesToData entries)
  | .tables elements => .list (elementsToData elements)

def entriesToData : List (String × Node) → List (String × Datum)
  | [] => []
  | (k, v) :: r => (k, v.toDatum) :: entriesToData r

def elementsToData : List (List (String × Node)) → List Datum
  | [] => []
  | e :: r => .table (entriesToData e) :: elementsToData r

end

end Fabric.Toml
