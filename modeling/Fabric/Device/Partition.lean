import Fabric.Device.Basic
/-!
The sites of a device by type and by bucket. The types are those of the device's sites, each once,
in the order of their names. Every type has its bucket, and every site is in exactly one.
-/

namespace Fabric

namespace Interner

/-- Symbols under their names. -/
def byName (names : Interner) :
    List Symbol → SortedMap String Symbol → Except Refusal (SortedMap String Symbol)
  | [], found => .ok found
  | x :: r, found =>
    match names.text? x with
    | none => .error .unknownSymbol
    | some name => names.byName r (found.insert name x)

/-- Different symbols in the order of their names. There is nothing to compare a single one with, so
its name is not looked up. -/
def sortByName (names : Interner) : List Symbol → Except Refusal (List Symbol)
  | [] => .ok []
  | [x] => .ok [x]
  | xs => (names.byName xs ∅).map (·.values)

end Interner

variable {β : Type} [BucketKey β]

/-- The types of the device's sites, in the order of their names. -/
def Device.types (d : Device β) (names : Interner) : Except Refusal (List Symbol) := do
  let types ← d.sites.mapM d.siteType
  names.sortByName types.eraseDups

/-- Sites by bucket. -/
structure Partition (β : Type) [BucketKey β] where
  sites : SortedMap β (List Site)

namespace Partition

def empty : Partition β := ⟨∅⟩

/-- Opens a bucket, unless it is there. -/
def opened (p : Partition β) (b : β) : Partition β :=
  if p.sites.contains b then p else ⟨p.sites.insert b []⟩

/-- Appends a site to a bucket. -/
def push (p : Partition β) (b : β) (s : Site) : Partition β :=
  ⟨p.sites.insert b ((p.sites.get? b).getD [] ++ [s])⟩

/-- Opens the buckets of types. -/
def openAll (d : Device β) : List Symbol → Partition β → Except Refusal (Partition β)
  | [], p => .ok p
  | t :: r, p => do
    let b ← d.bucketOfType t
    openAll d r (p.opened b)

/-- Puts sites into their buckets. -/
def pushAll (d : Device β) : List Site → Partition β → Except Refusal (Partition β)
  | [], p => .ok p
  | s :: r, p => do
    let b ← d.bucketOfSite s
    pushAll d r (p.push b s)

/-- The partition of a device's sites. A type has a bucket even if no site falls into it. -/
def ofDevice (d : Device β) (types : List Symbol) : Except Refusal (Partition β) := do
  let p ← openAll d types empty
  pushAll d d.sites p

/-- The buckets in ascending order. -/
def buckets (p : Partition β) : List β := p.sites.keys

/-- The sites of a bucket in the order of the device. -/
def get? (p : Partition β) (b : β) : Option (List Site) := p.sites.get? b

/-- The sites of a bucket, which must be there. -/
def sitesIn (p : Partition β) (b : β) : Except Refusal (List Site) :=
  match p.get? b with
  | some s => .ok s
  | none => .error (.unknownBucket (BucketKey.longText b))

/-- The number of sites in all buckets. -/
def siteCount (p : Partition β) : Nat := p.sites.values.flatten.length

end Partition

end Fabric
