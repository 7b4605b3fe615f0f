import Fabric.Handle
import Fabric.SortedMap.Basic
/-!
Device descriptions: what a device is called and which sites, wires and pips it has, in order, all
by name. An entry's position is the handle that it gets.
-/

namespace Fabric

/-- Free-form attributes of an entry. -/
abbrev Attributes := SortedMap String String

namespace Description

structure SiteEntry where
  name : String
  type : String
  hidden : Bool
  globalBuffer : Bool
  attributes : Attributes
  deriving DecidableEq, Repr

structure WireEntry where
  name : String
  type : Option String
  attributes : Attributes
  deriving DecidableEq, Repr

/-- A pip drives its target wire from its source wire. -/
structure PipEntry where
  name : String
  source : String
  target : String
  type : Option String
  attributes : Attributes
  deriving DecidableEq, Repr

end Description

structure Description where
  family : String
  name : String
  sites : List Description.SiteEntry
  wires : List Description.WireEntry
  pips : List Description.PipEntry
  deriving DecidableEq, Repr

/-- The family of devices that name none. -/
def defaultFamily : String := "generic"

/-- Why an entry cannot be added to a device. -/
inductive EntryError where
  | duplicateName (kind : Kind) (name : String)
  | unknownWire (pip : String) (wire : Wire)
  deriving DecidableEq, Repr

def EntryError.message : EntryError → String
  | duplicateName kind name => s!"duplicate {kind.noun} name '{name}'"
  | unknownWire pip wire => s!"pip '{pip}' refers to unknown wire {wire}"

namespace Description

/-- A field that must not be missing or empty. -/
inductive Field where
  | deviceName
  | siteType (site : String)
  | nameOf (kind : Kind)
  deriving DecidableEq, Repr

def Field.text : Field → String
  | deviceName => "device.name"
  | siteType site => s!"sites.{site}.type"
  | nameOf kind => s!"{kind.noun}s.name"

/-- Why a description cannot be loaded, or no device can be built from it. -/
inductive Fault where
  | noFile
  | notText
  /-- The text is no document, or the document no description. -/
  | malformed
  | missing (field : Field)
  | duplicateName (kind : Kind) (name : String)
  | unknownWire (pip wire : String)
  | rejected (reason : EntryError)
  deriving DecidableEq, Repr

/-- A malformed text has no message of its own. -/
def Fault.message? : Fault → Option String
  | noFile => some "failed to read device description: No such file or directory (os error 2)"
  | notText => some "failed to read device description: stream did not contain valid UTF-8"
  | malformed => none
  | missing field => some s!"missing required field: {field.text}"
  | duplicateName kind name => some s!"duplicate {kind.noun} name '{name}'"
  | unknownWire pip wire => some s!"pip '{pip}' refers to unknown wire '{wire}'"
  | rejected reason => some s!"validation error: {reason.message}"

end Description

end Fabric
