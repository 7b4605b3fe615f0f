import Fabric.Checksum
import Fabric.Drawing
import Fabric.Ledger.Basic
import Fabric.Timing
/-!
Devices. A device is the record of its answers. It must tell its sites and their types, its wires,
and the wire that each pip drives; every other answer has a neutral default.
-/

namespace Fabric

/-- Keys of site buckets. Symbols are names of their own; other keys need a device that names
them. -/
class BucketKey (β : Type) extends Ord β, Std.TransOrd β, Std.LawfulEqOrd β where
  name? : β → Option Symbol
  ofName? : Symbol → Option β
  longText : β → String

instance : BucketKey Symbol where
  name? := some
  ofName? := some
  longText := Symbol.longText

/-- An attribute of a device resource. -/
abbrev Attribute := Symbol × String

structure Device (β : Type) [BucketKey β] where
  family : String
  name : String
  /-- Every site, in a fixed order. -/
  sites : List Site
  siteType : Site → Except Refusal Symbol
  /-- The wire that a pip drives. -/
  target : Pip → Except Refusal Wire
  hasWire : Wire → Bool
  hasSite : Site → Bool := fun s => sites.contains s
  /-- Layers of pips at a tile. -/
  pipLayers : (x y : Int) → Int := fun _ _ => 1
  /-- What separates the parts of a name. -/
  nameDelimiter : Char := ' '
  -- Sites
  siteChecksum : Site → UInt32 := Handle.checksum
  siteHidden : Site → Except Refusal Bool := fun _ => .ok false
  siteGlobalBuffer : Site → Except Refusal Bool := fun _ => .ok false
  siteAttributes : Site → Except Refusal (List Attribute) := fun _ => .ok []
  /-- The pins of the site that a pin of a cell maps to. -/
  sitePins : Cell → Symbol → List Symbol := fun _ pin => [pin]
  /-- The cell in the way of binding a site. -/
  siteBlocker : Owners → Site → Option CellRef := Owners.site?
  -- Wires
  wireType : Wire → Except Refusal (Option Symbol) := fun _ => .ok none
  wireAttributes : Wire → Except Refusal (List Attribute) := fun _ => .ok []
  wireChecksum : Wire → UInt32 := Handle.checksum
  /-- The wire whose binding is in the way of binding a wire. -/
  wireBlockerWire : Wire → Option Wire := some
  /-- The net in the way of binding a wire. -/
  wireBlocker : Owners → Wire → Option NetRef := Owners.wire?
  -- Pips
  pipType : Pip → Except Refusal (Option Symbol) := fun _ => .ok none
  pipAttributes : Pip → Except Refusal (List Attribute) := fun _ => .ok []
  pipChecksum : Pip → UInt32 := Handle.checksum
  /-- A wire, other than the target, whose binding is in the way of binding a pip. -/
  pipBlockerWire : Pip → Option Wire := fun _ => none
  /-- The net in the way of binding a pip. -/
  pipBlocker : Owners → Pip → Option NetRef := Owners.pip?
  -- Groups
  groupByName : List Symbol → Option Group := fun _ => none
  groupName : Group → List Symbol := fun _ => []
  groups : List Group := []
  groupSites : Group → Except Refusal (List Site) := fun g => .error (.noGroups .sites g)
  groupWires : Group → Except Refusal (List Wire) := fun g => .error (.noGroups .wires g)
  groupPips : Group → Except Refusal (List Pip) := fun g => .error (.noGroups .pips g)
  groupGroups : Group → Except Refusal (List Group) := fun g => .error (.noGroups .groups g)
  -- Drawing
  shapes : Decal → List Shape := fun _ => []
  siteDecal : Site → DecalPlace := fun _ => .nothing
  wireDecal : Wire → DecalPlace := fun _ => .nothing
  pipDecal : Pip → DecalPlace := fun _ => .nothing
  groupDecal : Group → DecalPlace := fun _ => .nothing
  -- Timing
  /-- A budget in place of the computed one, for a port of a cell on a net. -/
  budget : Net → CellRef → Symbol → Option Delay := fun _ _ _ => none
  /-- The delay from one port of a cell to another. -/
  delay : Cell → (source target : Symbol) → Option Delay := fun _ _ _ => none
  /-- The class of a port, and the number of its clockings. -/
  portClass : Cell → Symbol → PortClass × Nat := fun _ _ => (.ignore, 0)
  clocking : Cell → Symbol → Nat → Except Refusal Clocking :=
    fun x _ i => .error (.noClockedPorts x.id i)
  -- Placement
  /-- Whether a site takes cells of a type. -/
  accepts : Symbol → Site → Except Refusal Bool := fun type s => do
    let own ← siteType s
    .ok (type = own)
  bucketName : β → Except Refusal Symbol := fun b =>
    match BucketKey.name? b with
    | some x => .ok x
    | none => .error (.unnamedBuckets family)
  bucketByName : Symbol → Except Refusal β := fun x =>
    match BucketKey.ofName? x with
    | some b => .ok b
    | none => .error (.unnameableBuckets family)
  /-- The bucket with the sites for cells of a type. -/
  bucketOfType : Symbol → Except Refusal β := bucketByName
  bucketOfSite : Site → Except Refusal β := fun s => do
    let own ← siteType s
    bucketOfType own
  /-- Whether the cells around a site go together. -/
  settled : Owners → Site → Bool := fun _ _ => true

end Fabric
