import Fabric.Device.Partition
import Fabric.Ledger.Audit
/-!
The layout of a device: its sites by type and bucket, as they were when the layout was made, and who
owns what. A flow is a layout together with the netlist that it works on.
-/

namespace Fabric

/-- A resource whose binding changed. -/
inductive Change where
  | site (s : Site)
  | wire (w : Wire)
  | pip (p : Pip)
  deriving DecidableEq, Repr

structure Layout (β : Type) [BucketKey β] where
  device : Device β
  types : List Symbol
  partition : Partition β
  owners : Owners
  /-- All changes so far, for a layout that is watched. -/
  log : Option (List Change)

namespace Layout

variable {β : Type} [BucketKey β]

/-- The layout of a device on which nothing is bound. -/
def ofDevice (d : Device β) (names : Interner) (watched : Bool) : Except Refusal (Layout β) := do
  let types ← d.types names
  let partition ← Partition.ofDevice d types
  .ok ⟨d, types, partition, ∅, if watched then some [] else none⟩

/-- Lets the device change; the indices and the owners stay as they are. -/
def updateDevice (l : Layout β) (change : Device β → Device β) : Layout β :=
  { l with device := change l.device }

/-- What is bound, of each kind. -/
def boundCounts (l : Layout β) : Nat × Nat × Nat :=
  (l.owners.ofSite.size, l.owners.ofWire.size, l.owners.ofPip.size)

def siteFree (l : Layout β) (s : Site) : Bool := (l.owners.site? s).isNone
def wireFree (l : Layout β) (w : Wire) : Bool := (l.owners.wire? w).isNone
def pipFree (l : Layout β) (p : Pip) : Bool := (l.owners.pip? p).isNone

/-- The cell that would have to move for a site to be bound. -/
def siteBlocker (l : Layout β) (s : Site) : Option CellRef := l.device.siteBlocker l.owners s

/-- The net that would have to be ripped up for a wire to be bound. -/
def wireBlocker (l : Layout β) (w : Wire) : Option NetRef := l.device.wireBlocker l.owners w

/-- The net that would have to be ripped up for a pip to be bound. -/
def pipBlocker (l : Layout β) (p : Pip) : Option NetRef := l.device.pipBlocker l.owners p

/-- Whether the cells around a site go together. -/
def settled (l : Layout β) (s : Site) : Bool := l.device.settled l.owners s

/-- The sites that a device accepts for a type. -/
def acceptedAmong (d : Device β) (type : Symbol) : List Site → Except Refusal (List Site)
  | [] => .ok []
  | s :: r => do
    let yes ← d.accepts type s
    let rest ← acceptedAmong d type r
    .ok (if yes then s :: rest else rest)

/-- The sites on which a cell of a type may be placed: of the type's bucket those that accept it,
none if there is no such bucket. -/
def legalSites (l : Layout β) (type : Symbol) : Except Refusal (List Site) := do
  let b ← l.device.bucketOfType type
  acceptedAmong l.device type ((l.partition.get? b).getD [])

/-- Writes changes into the log of a layout that is watched. -/
def notify (l : Layout β) (changes : List Change) : Layout β :=
  { l with log := l.log.map (· ++ changes) }

/-- The changes since the log was last drained, and the layout with an empty log. -/
def drainLog (l : Layout β) : List Change × Layout β :=
  (l.log.getD [], { l with log := l.log.map fun _ => [] })

end Layout

structure Flow (β : Type) [BucketKey β] where
  layout : Layout β
  netlist : Netlist

namespace Flow

variable {β : Type} [BucketKey β]

def ledger (f : Flow β) : Ledger := ⟨f.layout.owners, f.netlist⟩

/-- Takes over what an operation on the ledger did, and writes its changes into the log if it was
carried out. -/
def commit {α γ : Type} (f : Flow β) (o : Outcome Refusal Ledger α) (changes : α → List Change)
    (answer : α → γ) : Outcome Refusal (Flow β) γ :=
  let layout := { f.layout with owners := o.state.owners }
  match o.answer with
  | .error r => .refuse ⟨layout, o.state.netlist⟩ r
  | .ok a => .accept ⟨layout.notify (changes a), o.state.netlist⟩ (answer a)

/-! ## Sites -/

def bindSite (f : Flow β) (s : Site) (c : CellRef) (strength : Strength) :
    Outcome Refusal (Flow β) Unit :=
  if s.isNull then .refuse f (.nullHandle .bindSite) else
  if f.layout.device.hasSite s then
    f.commit (f.ledger.bindSite s c strength) (fun _ => [.site s]) id
  else .refuse f (.siteOutside s f.layout.device.name)

/-- Frees a site and answers the cell that it held. -/
def unbindSite (f : Flow β) (s : Site) : Outcome Refusal (Flow β) CellRef :=
  f.commit (f.ledger.unbindSite s) (fun _ => [.site s]) id

/-! ## Wires -/

/-- Gives a wire to a net that uses it directly. -/
def bindWire (f : Flow β) (w : Wire) (n : NetRef) (strength : Strength) :
    Outcome Refusal (Flow β) Unit :=
  if w.isNull then .refuse f (.nullHandle .bindWire) else
  if f.layout.device.hasWire w then
    f.commit (f.ledger.bindWire w n strength) (fun _ => [.wire w]) id
  else .refuse f (.wireOutside w f.layout.device.name)

/-- Frees a wire and the pip that drives it, and answers the net that owned them. -/
def unbindWire (f : Flow β) (w : Wire) : Outcome Refusal (Flow β) NetRef :=
  f.commit (f.ledger.unbindWire w) (fun r => .wire w :: (r.driver.map Change.pip).toList) (·.net)

/-! ## Pips -/

/-- Gives a pip and its target wire to a net. -/
def bindPip (f : Flow β) (p : Pip) (n : NetRef) (strength : Strength) :
    Outcome Refusal (Flow β) Unit :=
  if p.isNull then .refuse f (.nullHandle .bindPip) else
  match f.layout.device.target p with
  | .error r => .refuse f r
  | .ok w => f.commit (f.ledger.bindPip p w n strength) (fun _ => [.pip p, .wire w]) id

/-- Frees a pip and its target wire, and answers the net that owned them. -/
def unbindPip (f : Flow β) (p : Pip) : Outcome Refusal (Flow β) NetRef :=
  if p.isNull then .refuse f (.nullHandle .unbindPip) else
  match f.layout.device.target p with
  | .error r => .refuse f r
  | .ok w => f.commit (f.ledger.unbindPip p w) (fun _ => [.pip p, .wire w]) id

/-! ## Audit -/

def auditSiteInside (f : Flow β) (e : Site × CellRef) : Except AuditFailure Unit :=
  if f.layout.device.hasSite e.1 then .ok ()
  else .error (.found (.siteOutside e.1 f.layout.device.name))

def auditWireInside (f : Flow β) (e : Wire × NetRef) : Except AuditFailure Unit :=
  if f.layout.device.hasWire e.1 then .ok ()
  else .error (.found (.wireOutside e.1 f.layout.device.name))

/-- A bound pip drives a wire that its net owns, and the net says so. -/
def auditPip (f : Flow β) (e : Pip × NetRef) : Except AuditFailure Unit :=
  match f.layout.device.target e.1 with
  | .error r => .error (.refused r)
  | .ok w =>
  if f.layout.owners.wire? w ≠ some e.2 then .error (.found (.targetNotOwned e.1 e.2 w)) else
  match f.netlist.net e.2 with
  | .error r => .error (.refused r)
  | .ok x =>
    if x.driver? w = some e.1 then .ok ()
    else .error (.found (.driverNotRecorded e.1 e.2 w))

/-- Audits the ledger, then that the device has what is bound, then the pips. -/
def auditAlong (f : Flow β) (o : f.layout.owners.Walk) : Except AuditFailure Unit := do
  f.ledger.auditAlong o
  checkAll f.auditSiteInside o.sites
  checkAll f.auditWireInside o.wires
  checkAll f.auditPip o.pips

def audit (f : Flow β) : Except AuditFailure Unit := f.auditAlong f.layout.owners.ascending

end Flow

end Fabric
