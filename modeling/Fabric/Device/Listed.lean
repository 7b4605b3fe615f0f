import Fabric.Device.Basic
/-!
Devices given by lists: any handles may be sites and wires, in any order. Variants override what
their buckets are.
-/

namespace Fabric

/-- Bucket keys that are numbers under a label, and no names. -/
structure Numbered (label : String) where
  number : UInt32
  deriving DecidableEq, Repr

namespace Numbered

variable {label : String}

instance : Ord (Numbered label) := ⟨compareOn Numbered.number⟩

instance : Std.TransOrd (Numbered label) :=
  inferInstanceAs (Std.TransCmp (compareOn Numbered.number))

instance : Std.LawfulEqOrd (Numbered label) where
  eq_of_compare {a b} h := by
    have : a.number = b.number := Std.LawfulEqOrd.eq_of_compare h
    cases a; cases b; cases this; rfl

instance : BucketKey (Numbered label) where
  name? _ := none
  ofName? _ := none
  longText b := s!"{label}({b.number.toNat})"

end Numbered

abbrev Slot := Numbered "Slot"
abbrev Lane := Numbered "Lane"

structure Listing where
  family : String
  name : String
  /-- Sites with their types. Of two entries for a site the first counts. -/
  sites : List (Site × Symbol)
  wires : List Wire
  targets : SortedMap Pip Wire

namespace Listing

def siteType (l : Listing) (s : Site) : Except Refusal Symbol :=
  match l.sites.lookup s with
  | some type => .ok type
  | none => .error (.byDevice s!"table: unknown site {s}")

/-- A pip that is not listed drives the null wire. -/
def target (l : Listing) (p : Pip) : Wire := (l.targets.get? p).getD .null

def setTarget (l : Listing) (p : Pip) (w : Wire) : Listing :=
  { l with targets := l.targets.insert p w }

def dropWire (l : Listing) (w : Wire) : Listing := { l with wires := l.wires.filter (· ≠ w) }

def dropSite (l : Listing) (s : Site) : Listing := { l with sites := l.sites.filter (·.1 ≠ s) }

/-- The listed device, with the default answers. -/
def device {β : Type} [BucketKey β] (l : Listing) : Device β where
  family := l.family
  name := l.name
  sites := l.sites.map (·.1)
  siteType := l.siteType
  target p := .ok (l.target p)
  hasWire w := l.wires.contains w

end Listing

/-! ## Sites for several types -/

structure Sharing where
  /-- Site types, each with a cell type that its sites take as well. -/
  accepted : List (Symbol × Symbol)
  bucketOfType : List (Symbol × Symbol)
  bucketOfSite : List (Site × Symbol)

namespace Listing

def sharedBucketOfType (sharing : Sharing) (type : Symbol) : Symbol :=
  (sharing.bucketOfType.lookup type).getD type

/-- The listed device, with sites that take more than their own type. -/
def sharedDevice (l : Listing) (sharing : Sharing) : Device Symbol :=
  { (l.device : Device Symbol) with
    accepts := fun type s => do
      let own ← l.siteType s
      .ok (own = type || sharing.accepted.contains (own, type))
    bucketOfType := fun type => .ok (sharedBucketOfType sharing type)
    bucketOfSite := fun s =>
      match sharing.bucketOfSite.lookup s with
      | some b => .ok b
      | none => do
        let own ← l.siteType s
        .ok (sharedBucketOfType sharing own) }

/-! ## Numbered buckets -/

/-- The lane of types that have none of their own. -/
def lastLane : Lane := ⟨255⟩

def laneOf (lanes : List (Symbol × Lane)) (type : Symbol) : Lane :=
  (lanes.lookup type).getD lastLane

def laneName (lanes : List (Symbol × Lane)) (b : Lane) : Except Refusal Symbol :=
  match lanes.find? (·.2 = b) with
  | some (name, _) => .ok name
  | none => .error (.byDevice s!"table: no name for lane {b.number.toNat}")

/-- The listed device, with lanes for buckets. -/
def lanedDevice (l : Listing) (lanes : List (Symbol × Lane)) : Device Lane :=
  { (l.device : Device Lane) with
    bucketName := laneName lanes
    bucketByName := fun type => .ok (laneOf lanes type)
    bucketOfType := fun type => .ok (laneOf lanes type)
    bucketOfSite := fun s => do
      let own ← l.siteType s
      .ok (laneOf lanes own) }

end Listing

end Fabric
