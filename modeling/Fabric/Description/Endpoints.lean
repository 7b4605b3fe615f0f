import Fabric.Description.Basic
/-!
Endpoints of pips: from the names of wires to their positions.
-/

namespace Fabric

/-- The last position of a name in a list. -/
def lastIndex? (name : String) : List String → Option Nat
  | [] => none
  | n :: r =>
    match lastIndex? name r with
    | some i => some (i + 1)
    | none => if n = name then some 0 else none

theorem lastIndex?_eq_none_iff {name : String} {names : List String} :
    lastIndex? name names = none ↔ name ∉ names := by
  induction names with
  | nil => simp [lastIndex?]
  | cons n r ih =>
    unfold lastIndex?
    cases h : lastIndex? name r with
    | some i => simp [h] at ih ⊢; exact fun _ => ih
    | none =>
      by_cases hn : n = name
      · simp [hn]
      · simp [hn, ih.1 h, Ne.symm hn]

namespace Description

/-- Positions of the source and the target wire of a pip. -/
structure Endpoints where
  source : Nat
  target : Nat
  deriving DecidableEq, Repr

def wireNames (d : Description) : List String := d.wires.map (·.name)

/-- The position of a wire that a pip names. Of wires with one name the last is meant. -/
def wireOf (d : Description) (pip wire : String) : Except Fault Nat :=
  match lastIndex? wire d.wireNames with
  | some i => .ok i
  | none => .error (.unknownWire pip wire)

def endpointsOf (d : Description) (p : PipEntry) : Except Fault Endpoints := do
  let source ← d.wireOf p.name p.source
  let target ← d.wireOf p.name p.target
  .ok ⟨source, target⟩

/-- Endpoints of the pips in a list, up to the first one that names an unknown wire. -/
def endpointsOfAll (d : Description) : List PipEntry → Except Fault (List Endpoints)
  | [] => .ok []
  | p :: r => do
    let e ← d.endpointsOf p
    let es ← d.endpointsOfAll r
    .ok (e :: es)

/-- The endpoints of all pips, in order. -/
def endpoints (d : Description) : Except Fault (List Endpoints) := d.endpointsOfAll d.pips

end Description

end Fabric
