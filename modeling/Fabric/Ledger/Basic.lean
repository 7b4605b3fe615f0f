import Fabric.Netlist
import Fabric.Outcome
/-!
The ledger of owners: which cell owns a site, which net owns a wire or a pip, kept in step with the
netlist. Every resource has at most one owner. An operation that does not fit is refused; its checks
come first, up to the look-up of an owner that the netlist may not have.
-/

namespace Fabric

structure Owners where
  ofSite : SortedMap Site CellRef
  ofWire : SortedMap Wire NetRef
  ofPip : SortedMap Pip NetRef
  deriving DecidableEq, Repr

namespace Owners

def empty : Owners := ⟨∅, ∅, ∅⟩

instance : EmptyCollection Owners := ⟨empty⟩
instance : Inhabited Owners := ⟨empty⟩

def site? (o : Owners) (s : Site) : Option CellRef := o.ofSite.get? s

def wire? (o : Owners) (w : Wire) : Option NetRef := o.ofWire.get? w

def pip? (o : Owners) (p : Pip) : Option NetRef := o.ofPip.get? p

end Owners

/-- The owners, and the netlist whose cells and nets they are. -/
structure Ledger where
  owners : Owners
  netlist : Netlist
  deriving DecidableEq, Repr

namespace Ledger

/-! ## Entries -/

def setSite (l : Ledger) (s : Site) (c : CellRef) : Ledger :=
  { l with owners.ofSite := l.owners.ofSite.insert s c }

def freeSite (l : Ledger) (s : Site) : Ledger :=
  { l with owners.ofSite := l.owners.ofSite.erase s }

def setWire (l : Ledger) (w : Wire) (n : NetRef) : Ledger :=
  { l with owners.ofWire := l.owners.ofWire.insert w n }

def freeWire (l : Ledger) (w : Wire) : Ledger :=
  { l with owners.ofWire := l.owners.ofWire.erase w }

def setPip (l : Ledger) (p : Pip) (n : NetRef) : Ledger :=
  { l with owners.ofPip := l.owners.ofPip.insert p n }

def freePip (l : Ledger) (p : Pip) : Ledger :=
  { l with owners.ofPip := l.owners.ofPip.erase p }

def setCell (l : Ledger) (c : CellRef) (x : Cell) : Ledger :=
  { l with netlist := l.netlist.setCell c x }

/-- Enters a wire into the wire-set of the net `x`, whose handle is `n`. -/
def useWire (l : Ledger) (n : NetRef) (x : Net) (w : Wire) (u : WireUse) : Ledger :=
  { l with netlist := l.netlist.setNet n { x with wires := x.wires.insert w u } }

/-- Removes a wire from the wire-set of the net `x`, whose handle is `n`. -/
def dropWire (l : Ledger) (n : NetRef) (x : Net) (w : Wire) : Ledger :=
  { l with netlist := l.netlist.setNet n { x with wires := x.wires.erase w } }

/-! ## Sites -/

def bindSite (l : Ledger) (s : Site) (c : CellRef) (strength : Strength) :
    Outcome Refusal Ledger Unit :=
  if s.isNull then .refuse l (.nullHandle .bindSite) else
  match l.owners.site? s with
  | some owner => .refuse l (.siteTaken s owner)
  | none =>
  match l.netlist.cell c with
  | .error r => .refuse l r
  | .ok x =>
  match x.site with
  | some current => .refuse l (.cellPlaced c current)
  | none => .accept ((l.setCell c { x with site := some s, strength }).setSite s c) ()

/-- Frees a site and answers the cell that it held. The site is free even if the netlist turns out
not to have that cell. -/
def unbindSite (l : Ledger) (s : Site) : Outcome Refusal Ledger CellRef :=
  if s.isNull then .refuse l (.nullHandle .unbindSite) else
  match l.owners.site? s with
  | none => .refuse l (.siteFree s)
  | some c =>
  match l.netlist.cell c with
  | .error r => .refuse (l.freeSite s) r
  | .ok x => .accept ((l.freeSite s).setCell c { x with site := none, strength := .none }) c

/-! ## Wires -/

def bindWire (l : Ledger) (w : Wire) (n : NetRef) (strength : Strength) :
    Outcome Refusal Ledger Unit :=
  if w.isNull then .refuse l (.nullHandle .bindWire) else
  match l.owners.wire? w with
  | some owner => .refuse l (.wireTaken w owner)
  | none =>
  match l.netlist.net n with
  | .error r => .refuse l r
  | .ok x => .accept ((l.useWire n x w ⟨none, strength⟩).setWire w n) ()

/-- What became free with a wire: the net that owned it, and the pip that drove it. -/
structure Released where
  net : NetRef
  driver : Option Pip
  deriving DecidableEq, Repr

/-- Frees a wire, and the pip that drives it. -/
def unbindWire (l : Ledger) (w : Wire) : Outcome Refusal Ledger Released :=
  if w.isNull then .refuse l (.nullHandle .unbindWire) else
  match l.owners.wire? w with
  | none => .refuse l (.wireFree w)
  | some n =>
  match l.netlist.net n with
  | .error r => .refuse l r
  | .ok x =>
  match x.wires.get? w with
  | none => .refuse l (.wireUnlisted w n)
  | some ⟨none, _⟩ => .accept ((l.dropWire n x w).freeWire w) ⟨n, none⟩
  | some ⟨some p, _⟩ => .accept (((l.dropWire n x w).freePip p).freeWire w) ⟨n, some p⟩

/-! ## Pips -/

/-- Whether a net may take a pip's target wire: it is free, or the net's own and not driven. -/
def checkTarget (l : Ledger) (p : Pip) (w : Wire) (n : NetRef) : Except Refusal Unit :=
  match l.owners.wire? w with
  | none => .ok ()
  | some owner =>
  if owner ≠ n then .error (.targetTaken w p owner) else
  match l.netlist.net n with
  | .error r => .error r
  | .ok x =>
  match x.driver? w with
  | some q => .error (.targetDriven w p q)
  | none => .ok ()

/-- Gives a pip and its target wire `w` to a net. A wire that the net already uses directly gets the
pip as its driver. -/
def bindPip (l : Ledger) (p : Pip) (w : Wire) (n : NetRef) (strength : Strength) :
    Outcome Refusal Ledger Unit :=
  if p.isNull then .refuse l (.nullHandle .bindPip) else
  if w.isNull then .refuse l (.nullTarget p) else
  match l.owners.pip? p with
  | some owner => .refuse l (.pipTaken p owner)
  | none =>
  match l.checkTarget p w n with
  | .error r => .refuse l r
  | .ok _ =>
  match l.netlist.net n with
  | .error r => .refuse l r
  | .ok x => .accept (((l.useWire n x w ⟨some p, strength⟩).setWire w n).setPip p n) ()

/-- Frees a pip and its target wire `w`. The wire is free even if the netlist turns out not to have
the net that owned it. -/
def unbindPip (l : Ledger) (p : Pip) (w : Wire) : Outcome Refusal Ledger NetRef :=
  if p.isNull then .refuse l (.nullHandle .unbindPip) else
  match l.owners.pip? p with
  | none => .refuse l (.pipFree p)
  | some n =>
  match l.owners.wire? w with
  | none => .refuse l (.targetFree w p)
  | some owner =>
  if owner ≠ n then .refuse l (.targetElsewhere w p owner n) else
  match l.netlist.net n with
  | .error r => .refuse (l.freeWire w) r
  | .ok x => .accept (((l.freeWire w).dropWire n x w).freePip p) n

end Ledger

end Fabric
