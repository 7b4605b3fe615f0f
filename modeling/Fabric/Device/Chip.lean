import Fabric.Description.Basic
import Fabric.Device.Basic
/-!
Chips: devices given entirely by tables. The n-th site, wire and pip have the handle `n`; names are
distinct within a kind; every wire knows the pips that it drives and those that drive it.
-/

namespace Fabric

namespace Chip

structure SiteRow where
  name : Symbol
  type : Symbol
  hidden : Bool
  globalBuffer : Bool
  attributes : List Attribute
  deriving DecidableEq, Repr

structure WireRow where
  name : Symbol
  type : Option Symbol
  attributes : List Attribute
  /-- The pips that drive the wire. -/
  uphill : List Pip
  /-- The pips that the wire drives. -/
  downhill : List Pip
  deriving DecidableEq, Repr

structure PipRow where
  name : Symbol
  type : Option Symbol
  source : Wire
  target : Wire
  attributes : List Attribute
  deriving DecidableEq, Repr

end Chip

structure Chip where
  family : String
  name : String
  sites : List Chip.SiteRow
  wires : List Chip.WireRow
  pips : List Chip.PipRow
  siteByName : SortedMap Symbol Site
  wireByName : SortedMap Symbol Wire
  pipByName : SortedMap Symbol Pip
  deriving DecidableEq, Repr

namespace Chip

/-- A chip without entries, of the default family. -/
def blank (name : String) : Chip := ⟨defaultFamily, name, [], [], [], ∅, ∅, ∅⟩

/-! ## Looking up -/

def site? (c : Chip) (s : Site) : Option SiteRow := c.sites[s.index]?
def wire? (c : Chip) (w : Wire) : Option WireRow := c.wires[w.index]?
def pip? (c : Chip) (p : Pip) : Option PipRow := c.pips[p.index]?

def site (c : Chip) (s : Site) : Except Refusal SiteRow :=
  match c.site? s with
  | some row => .ok row
  | none => .error (.unknownSite c.name s)

def wire (c : Chip) (w : Wire) : Except Refusal WireRow :=
  match c.wire? w with
  | some row => .ok row
  | none => .error (.unknownWire c.name w)

def pip (c : Chip) (p : Pip) : Except Refusal PipRow :=
  match c.pip? p with
  | some row => .ok row
  | none => .error (.unknownPip c.name p)

def siteName (c : Chip) (s : Site) : Except Refusal Symbol := (c.site s).map (·.name)
def wireName (c : Chip) (w : Wire) : Except Refusal Symbol := (c.wire w).map (·.name)
def pipName (c : Chip) (p : Pip) : Except Refusal Symbol := (c.pip p).map (·.name)

/-- The wire that a pip is driven from. -/
def source (c : Chip) (p : Pip) : Except Refusal Wire := (c.pip p).map (·.source)

/-- The pips that a wire drives. -/
def downhill (c : Chip) (w : Wire) : Except Refusal (List Pip) := (c.wire w).map (·.downhill)

/-- The pips that drive a wire. -/
def uphill (c : Chip) (w : Wire) : Except Refusal (List Pip) := (c.wire w).map (·.uphill)

def siteHandles (c : Chip) : List Site := Handle.firstN .site c.sites.length
def wireHandles (c : Chip) : List Wire := Handle.firstN .wire c.wires.length
def pipHandles (c : Chip) : List Pip := Handle.firstN .pip c.pips.length

/-- The chip as a device. Its buckets are the types of its sites. -/
def device (c : Chip) : Device Symbol where
  family := c.family
  name := c.name
  sites := c.siteHandles
  siteType s := (c.site s).map (·.type)
  target p := (c.pip p).map (·.target)
  hasWire w := w.index < c.wires.length
  hasSite s := s.index < c.sites.length
  siteHidden s := (c.site s).map (·.hidden)
  siteGlobalBuffer s := (c.site s).map (·.globalBuffer)
  siteAttributes s := (c.site s).map (·.attributes)
  wireType w := (c.wire w).map (·.type)
  wireAttributes w := (c.wire w).map (·.attributes)
  pipType p := (c.pip p).map (·.type)
  pipAttributes p := (c.pip p).map (·.attributes)

/-! ## Changing -/

def setHidden (c : Chip) (s : Site) (hidden : Bool) : Except Refusal Chip := do
  let row ← c.site s
  .ok { c with sites := c.sites.set s.index { row with hidden } }

def setGlobalBuffer (c : Chip) (s : Site) (globalBuffer : Bool) : Except Refusal Chip := do
  let row ← c.site s
  .ok { c with sites := c.sites.set s.index { row with globalBuffer } }

/-- Rewrites the entry at an index. -/
def rewrite {ρ : Type} (rows : List ρ) (i : Nat) (f : ρ → ρ) : Except Refusal (List ρ) :=
  if i < rows.length then .ok (rows.modify i f) else .error (.outOfRange rows.length i)

def patchSite (c : Chip) (s : Site) (f : SiteRow → SiteRow) : Except Refusal Chip :=
  (rewrite c.sites s.index f).map fun sites => { c with sites }

def patchWire (c : Chip) (w : Wire) (f : WireRow → WireRow) : Except Refusal Chip :=
  (rewrite c.wires w.index f).map fun wires => { c with wires }

def patchPip (c : Chip) (p : Pip) (f : PipRow → PipRow) : Except Refusal Chip :=
  (rewrite c.pips p.index f).map fun pips => { c with pips }

def appendSite (c : Chip) (row : SiteRow) : Chip :=
  { c with
    sites := c.sites ++ [row]
    siteByName := c.siteByName.insert row.name (.ofIndex c.sites.length) }

def appendWire (c : Chip) (row : WireRow) : Chip :=
  { c with
    wires := c.wires ++ [row]
    wireByName := c.wireByName.insert row.name (.ofIndex c.wires.length) }

def addDownhill (p : Pip) (row : WireRow) : WireRow := { row with downhill := row.downhill ++ [p] }

def addUphill (p : Pip) (row : WireRow) : WireRow := { row with uphill := row.uphill ++ [p] }

def appendPip (c : Chip) (row : PipRow) : Chip :=
  let p : Pip := .ofIndex c.pips.length
  { c with
    pips := c.pips ++ [row]
    wires := (c.wires.modify row.source.index (addDownhill p)).modify row.target.index (addUphill p)
    pipByName := c.pipByName.insert row.name p }

end Chip

end Fabric
