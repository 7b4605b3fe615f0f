import Fabric.Description.Endpoints
import Fabric.Device.Chip
/-!
Drafts: chips under construction, entry by entry or from a description. An entry whose name is taken
is refused and leaves the chip as it was. A description says more of an entry than an addition
takes; this is patched into its row afterwards.
-/

namespace Fabric

/-- A chip under construction, and the interner of its names. -/
structure Draft where
  names : Interner
  chip : Chip

/-- How building a chip from a description fails. -/
inductive BuildFailure where
  | refused (reason : Refusal)
  | fault (fault : Description.Fault)
  deriving DecidableEq, Repr

namespace Draft

/-- Interns a string. -/
def intern (d : Draft) (s : String) : Symbol × Draft :=
  let (x, names) := d.names.intern s
  (x, { d with names })

def internOptional (d : Draft) : Option String → Option Symbol × Draft
  | none => (none, d)
  | some s =>
    let (x, d) := d.intern s
    (some x, d)

/-- Interns the keys of attributes, in their order. -/
def internAttributes (d : Draft) (attributes : Attributes) : List Attribute × Draft :=
  let (xs, names) := d.names.internAll attributes.keys
  (xs.zip attributes.values, { d with names })

/-- Adds a site. Its name is interned even if it is taken. -/
def addSite (d : Draft) (siteName siteType : String) : Outcome EntryError Draft Site :=
  let (name, d) := d.intern siteName
  if d.chip.siteByName.contains name then .refuse d (.duplicateName .site siteName) else
  let (type, d) := d.intern siteType
  .accept { d with chip := d.chip.appendSite ⟨name, type, false, false, []⟩ }
    (.ofIndex d.chip.sites.length)

/-- Adds a wire. Its name is interned even if it is taken. -/
def addWire (d : Draft) (wireName : String) (wireType : Option String) :
    Outcome EntryError Draft Wire :=
  let (name, d) := d.intern wireName
  if d.chip.wireByName.contains name then .refuse d (.duplicateName .wire wireName) else
  let (type, d) := d.internOptional wireType
  .accept { d with chip := d.chip.appendWire ⟨name, type, [], [], []⟩ }
    (.ofIndex d.chip.wires.length)

/-- Adds a pip between two wires of the chip. Its name is interned even if it is refused. -/
def addPip (d : Draft) (pipName : String) (source target : Wire) : Outcome EntryError Draft Pip :=
  let (name, d) := d.intern pipName
  if d.chip.pipByName.contains name then .refuse d (.duplicateName .pip pipName) else
  if d.chip.wires.length ≤ source.index then .refuse d (.unknownWire pipName source) else
  if d.chip.wires.length ≤ target.index then .refuse d (.unknownWire pipName target) else
  .accept { d with chip := d.chip.appendPip ⟨name, none, source, target, []⟩ }
    (.ofIndex d.chip.pips.length)

/-! ## Patches -/

/-- Gives a site its flags and attributes. -/
def patchSite (d : Draft) (s : Site) (hidden globalBuffer : Bool) (given : Attributes) :
    Except Refusal Draft :=
  let (attributes, d) := d.internAttributes given
  (d.chip.patchSite s fun row => { row with hidden, globalBuffer, attributes }).map
    fun chip => { d with chip }

/-- Gives a wire its attributes. -/
def patchWire (d : Draft) (w : Wire) (given : Attributes) : Except Refusal Draft :=
  let (attributes, d) := d.internAttributes given
  (d.chip.patchWire w fun row => { row with attributes }).map fun chip => { d with chip }

/-- Gives a pip its type and attributes. -/
def patchPip (d : Draft) (p : Pip) (typeName : Option String) (given : Attributes) :
    Except Refusal Draft :=
  let (type, d) := d.internOptional typeName
  let (attributes, d) := d.internAttributes given
  (d.chip.patchPip p fun row => { row with type, attributes }).map fun chip => { d with chip }

/-! ## From a description -/

/-- Patches an entry that was added, under the handle that it got. -/
def patched {η : Type} (patch : Draft → η → Except Refusal Draft) :
    Outcome EntryError Draft η → Except BuildFailure Draft
  | ⟨.error e, _⟩ => .error (.fault (.rejected e))
  | ⟨.ok h, d⟩ => (patch d h).mapError .refused

def enterSite (d : Draft) (e : Description.SiteEntry) : Except BuildFailure Draft :=
  patched (fun d s => d.patchSite s e.hidden e.globalBuffer e.attributes) (d.addSite e.name e.type)

def enterWire (d : Draft) (e : Description.WireEntry) : Except BuildFailure Draft :=
  patched (fun d w => d.patchWire w e.attributes) (d.addWire e.name e.type)

def enterPip (d : Draft) (e : Description.PipEntry × Description.Endpoints) :
    Except BuildFailure Draft :=
  patched (fun d p => d.patchPip p e.1.type e.1.attributes)
    (d.addPip e.1.name (.ofIndex e.2.source) (.ofIndex e.2.target))

/-- The chip that a description describes. Endpoints are resolved first; then come the sites, the
wires and the pips, each kind in order. -/
def ofDescription (names : Interner) (description : Description) : Except BuildFailure Draft := do
  let ends ← description.endpoints.mapError .fault
  let d : Draft := ⟨names, { Chip.blank description.name with family := description.family }⟩
  let d ← description.sites.foldlM enterSite d
  let d ← description.wires.foldlM enterWire d
  (description.pips.zip ends).foldlM enterPip d

end Draft

end Fabric
