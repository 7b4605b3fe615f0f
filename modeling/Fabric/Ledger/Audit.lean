import Fabric.Ledger.Basic
/-!
Audits: whether the owners agree with the netlist, in both directions. An audit reports the first
disagreement; it is refused where an owner is missing from the netlist altogether. What is bound may
be walked in any order, and so may the wires of a net.
-/

namespace Fabric

/-- A way in which owners, netlist and device disagree. -/
inductive Discrepancy where
  | cellElsewhere (site : Site) (cell : CellRef)
  | siteNotOwned (cell : CellRef) (site : Site)
  | wireNotListed (wire : Wire) (net : NetRef)
  | wireNotOwned (net : NetRef) (wire : Wire)
  | driverNotOwned (net : NetRef) (wire : Wire) (pip : Pip)
  | siteOutside (site : Site) (device : String)
  | wireOutside (wire : Wire) (device : String)
  | targetNotOwned (pip : Pip) (net : NetRef) (wire : Wire)
  | driverNotRecorded (pip : Pip) (net : NetRef) (wire : Wire)
  deriving DecidableEq, Repr

def Discrepancy.message : Discrepancy → String
  | cellElsewhere site cell =>
    s!"site {site} is bound to cell {cell}, but the cell is not placed there"
  | siteNotOwned cell site => s!"cell {cell} claims site {site}, which is not bound to it"
  | wireNotListed wire net => s!"wire {wire} is bound to net {net}, but missing from its wire-set"
  | wireNotOwned net wire => s!"net {net} lists wire {wire}, which is not bound to it"
  | driverNotOwned net wire pip =>
    s!"net {net} drives wire {wire} through pip {pip}, which is not bound to it"
  | siteOutside site device => s!"site {site} is bound but is not part of device {device}"
  | wireOutside wire device => s!"wire {wire} is bound but is not part of device {device}"
  | targetNotOwned pip net wire =>
    s!"pip {pip} is bound to net {net}, but its destination wire {wire} is not"
  | driverNotRecorded pip net wire =>
    s!"pip {pip} is bound to net {net}, but is not recorded as the driver of wire {wire}"

/-- How an audit fails. -/
inductive AuditFailure where
  | refused (reason : Refusal)
  | found (discrepancy : Discrepancy)
  deriving DecidableEq, Repr

/-- Checks the elements of a list from left to right, up to the first failure. -/
def checkAll {α ε : Type} (check : α → Except ε Unit) : List α → Except ε Unit
  | [] => .ok ()
  | a :: r =>
    match check a with
    | .error e => .error e
    | .ok _ => checkAll check r

theorem checkAll_eq_ok_iff {α ε : Type} {check : α → Except ε Unit} {l : List α} :
    checkAll check l = .ok () ↔ ∀ a ∈ l, check a = .ok () := by
  induction l with
  | nil => simp [checkAll]
  | cons a l ih =>
    cases h : check a with
    | error e => simp [checkAll, h]
    | ok u => cases u; simp [checkAll, h, ih]

/-- An order in which what is bound is walked, and the wires of each net. -/
structure Owners.Walk (o : Owners) where
  sites : List (Site × CellRef)
  wires : List (Wire × NetRef)
  pips : List (Pip × NetRef)
  uses : Net → List (Wire × WireUse)
  sites_perm : sites.Perm o.ofSite.entries
  wires_perm : wires.Perm o.ofWire.entries
  pips_perm : pips.Perm o.ofPip.entries
  uses_perm : ∀ x, (uses x).Perm x.wires.entries

/-- By ascending handles. -/
def Owners.ascending (o : Owners) : o.Walk where
  sites := o.ofSite.entries
  wires := o.ofWire.entries
  pips := o.ofPip.entries
  uses x := x.wires.entries
  sites_perm := .refl _
  wires_perm := .refl _
  pips_perm := .refl _
  uses_perm _ := .refl _

namespace Ledger

def auditSite (l : Ledger) (e : Site × CellRef) : Except AuditFailure Unit :=
  match l.netlist.cell e.2 with
  | .error r => .error (.refused r)
  | .ok x => if x.site = some e.1 then .ok () else .error (.found (.cellElsewhere e.1 e.2))

def auditCell (l : Ledger) (x : Cell) : Except AuditFailure Unit :=
  match x.site with
  | none => .ok ()
  | some s =>
    if l.owners.site? s = some x.id then .ok () else .error (.found (.siteNotOwned x.id s))

def auditWire (l : Ledger) (e : Wire × NetRef) : Except AuditFailure Unit :=
  match l.netlist.net e.2 with
  | .error r => .error (.refused r)
  | .ok x => if x.wires.contains e.1 then .ok () else .error (.found (.wireNotListed e.1 e.2))

/-- A wire that a net lists, and its driver, belong to the net. -/
def auditUse (l : Ledger) (n : NetRef) (e : Wire × WireUse) : Except AuditFailure Unit :=
  if l.owners.wire? e.1 ≠ some n then .error (.found (.wireNotOwned n e.1)) else
  match e.2.driver with
  | none => .ok ()
  | some p =>
    if l.owners.pip? p = some n then .ok () else .error (.found (.driverNotOwned n e.1 p))

def auditNet (l : Ledger) (o : l.owners.Walk) (x : Net) : Except AuditFailure Unit :=
  checkAll (l.auditUse x.id) (o.uses x)

/-- Checks sites and cells, then wires and nets. -/
def auditAlong (l : Ledger) (o : l.owners.Walk) : Except AuditFailure Unit := do
  checkAll l.auditSite o.sites
  checkAll l.auditCell l.netlist.cells
  checkAll l.auditWire o.wires
  checkAll (l.auditNet o) l.netlist.nets

def audit (l : Ledger) : Except AuditFailure Unit := l.auditAlong l.owners.ascending

end Ledger

end Fabric
