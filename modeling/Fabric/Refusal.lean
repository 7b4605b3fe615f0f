import Fabric.Handle
/-!
Refusals: the contract violations that end an operation, each with its cause.
-/

namespace Fabric

/-- The six operations that change who owns a resource. -/
inductive Action where
  | bindSite | unbindSite | bindWire | unbindWire | bindPip | unbindPip
  deriving DecidableEq, Repr

namespace Action

def label : Action → String
  | bindSite => "bind_site"
  | unbindSite => "unbind_site"
  | bindWire => "bind_wire"
  | unbindWire => "unbind_wire"
  | bindPip => "bind_pip"
  | unbindPip => "unbind_pip"

/-- The kind of resource that the operation is about. -/
def kind : Action → Kind
  | bindSite | unbindSite => .site
  | bindWire | unbindWire => .wire
  | bindPip | unbindPip => .pip

end Action

/-- What one can ask about the contents of a group. -/
inductive GroupQuery where
  | sites | wires | pips | groups
  deriving DecidableEq, Repr

def GroupQuery.label : GroupQuery → String
  | sites => "group_sites"
  | wires => "group_wires"
  | pips => "group_pips"
  | groups => "group_groups"

inductive Refusal where
  | nullHandle (action : Action)
  | siteOutside (site : Site) (device : String)
  | wireOutside (wire : Wire) (device : String)
  | siteTaken (site : Site) (owner : CellRef)
  | cellPlaced (cell : CellRef) (site : Site)
  | siteFree (site : Site)
  | wireTaken (wire : Wire) (owner : NetRef)
  | wireFree (wire : Wire)
  /-- The wire has an owner that does not list it. -/
  | wireUnlisted (wire : Wire) (owner : NetRef)
  | pipTaken (pip : Pip) (owner : NetRef)
  | pipFree (pip : Pip)
  | nullTarget (pip : Pip)
  | targetTaken (wire : Wire) (pip : Pip) (owner : NetRef)
  | targetDriven (wire : Wire) (pip : Pip) (driver : Pip)
  | targetElsewhere (wire : Wire) (pip : Pip) (owner net : NetRef)
  | targetFree (wire : Wire) (pip : Pip)
  /-- A table has no entry at an index. -/
  | outOfRange (size index : Nat)
  | unknownSymbol
  | unknownSite (device : String) (site : Site)
  | unknownWire (device : String) (wire : Wire)
  | unknownPip (device : String) (pip : Pip)
  /-- The device's buckets have no names of their own, and the device gives none. -/
  | unnamedBuckets (family : String)
  | unnameableBuckets (family : String)
  /-- There is no such bucket; the key is in its long form. -/
  | unknownBucket (key : String)
  | noGroups (query : GroupQuery) (group : Group)
  | noClockedPorts (cell : CellRef) (index : Nat)
  /-- A device refuses in words of its own. -/
  | byDevice (words : String)
  deriving DecidableEq, Repr

namespace Refusal

def needsNaming (family method : String) : String :=
  s!"{family}: {method} must be implemented when BucketId is a type other than Ident"

/-- What comes before the text of a refusal that no device with the usual answers can cause. -/
def unreachable (words : String) : String := s!"internal error: entered unreachable code: {words}"

def message : Refusal → String
  | nullHandle action => s!"{action.label}: null {action.kind.noun} handle"
  | siteOutside site device => s!"bind_site: site {site} is not part of device {device}"
  | wireOutside wire device => s!"bind_wire: wire {wire} is not part of device {device}"
  | siteTaken site owner => s!"bind_site: site {site} is already bound to cell {owner}"
  | cellPlaced cell site => s!"bind_site: cell {cell} is already placed at site {site}"
  | siteFree site => s!"unbind_site: site {site} is not bound"
  | wireTaken wire owner => s!"bind_wire: wire {wire} is already bound to net {owner}"
  | wireFree wire => s!"unbind_wire: wire {wire} is not bound"
  | wireUnlisted wire owner =>
    s!"unbind_wire: wire {wire} is bound to net {owner} but missing from its wire-set"
  | pipTaken pip owner => s!"bind_pip: pip {pip} is already bound to net {owner}"
  | pipFree pip => s!"unbind_pip: pip {pip} is not bound"
  | nullTarget pip => s!"bind_pip: pip {pip} has a null destination wire"
  | targetTaken wire pip owner =>
    s!"bind_pip: destination wire {wire} of pip {pip} is already bound to net {owner}"
  | targetDriven wire pip driver =>
    s!"bind_pip: destination wire {wire} of pip {pip} is already driven by pip {driver}"
  | targetElsewhere wire pip owner net =>
    s!"unbind_pip: destination wire {wire} of pip {pip} is bound to net {owner}, not {net}"
  | targetFree wire pip => s!"unbind_pip: destination wire {wire} of pip {pip} is not bound"
  | outOfRange size index => s!"index out of bounds: the len is {size} but the index is {index}"
  | unknownSymbol => "Key out of bounds"
  | unknownSite device site => s!"{device}: unknown site {site}"
  | unknownWire device wire => s!"{device}: unknown wire {wire}"
  | unknownPip device pip => s!"{device}: unknown pip {pip}"
  | unnamedBuckets family => needsNaming family "bucket_name"
  | unnameableBuckets family => needsNaming family "bucket_by_name"
  | unknownBucket key => s!"sites_in_bucket: unknown bucket {key}"
  | noGroups query group =>
    unreachable s!"{query.label}({group}) called on a device without groups"
  | noClockedPorts cell index => unreachable
    s!"port_clocking_info(index {index}) called for cell {cell} with no clocked ports"
  | byDevice words => words

end Refusal

end Fabric
