import Fabric.Datum
import Fabric.Description.Validity
import Fabric.Toml.Reader
/-!
Descriptions read from structured data and from TOML documents. An entry is a table of its fields,
or a list of them in order. Unknown names are ignored; nothing is converted.
-/

namespace Fabric.Description

/-- Whether a list may hold more than the fields of its entry. -/
inductive Surplus where
  | allowed
  | refused
  deriving DecidableEq, Repr

/-- The fields of an entry in the order of their names. -/
def fieldsOf (surplus : Surplus) (names : List String) : Datum → Option (List (Option Datum))
  | .table entries => some (names.map fun n => Datum.field? n entries)
  | .list items =>
    if surplus = .refused ∧ names.length < items.length then none
    else some (names.zipIdx.map fun (_, i) => items[i]?)
  | _ => none

def required (read : Datum → Option α) (field : Option Datum) : Option α := field.bind read

def withDefault (read : Datum → Option α) (fallback : α) : Option Datum → Option α
  | none => some fallback
  | some d => read d

/-- A field that may be missing or null. -/
def optional (read : Datum → Option α) : Option Datum → Option (Option α)
  | none => some none
  | some .null => some none
  | some d => (read d).map some

def readAttributes : Datum → Option Attributes
  | .table entries => do
    let pairs ← entries.mapM fun (k, v) => v.asText?.map fun s => (k, s)
    some (SortedMap.ofList pairs)
  | .moment written => some (SortedMap.ofList [(Datum.momentKey, written)])
  | _ => none

def readList (read : Datum → Option α) : Datum → Option (List α)
  | .list items => items.mapM read
  | _ => none

def readSite (surplus : Surplus) (d : Datum) : Option SiteEntry := do
  match ← fieldsOf surplus ["name", "type", "hidden", "global_buf", "attrs"] d with
  | [name, type, hidden, globalBuffer, attributes] =>
    some {
      name := ← required Datum.asText? name
      type := ← required Datum.asText? type
      hidden := ← withDefault Datum.asBool? false hidden
      globalBuffer := ← withDefault Datum.asBool? false globalBuffer
      attributes := ← withDefault readAttributes ∅ attributes }
  | _ => none

def readWire (surplus : Surplus) (d : Datum) : Option WireEntry := do
  match ← fieldsOf surplus ["name", "type", "attrs"] d with
  | [name, type, attributes] =>
    some {
      name := ← required Datum.asText? name
      type := ← optional Datum.asText? type
      attributes := ← withDefault readAttributes ∅ attributes }
  | _ => none

def readPip (surplus : Surplus) (d : Datum) : Option PipEntry := do
  match ← fieldsOf surplus ["name", "src", "dst", "type", "attrs"] d with
  | [name, source, target, type, attributes] =>
    some {
      name := ← required Datum.asText? name
      source := ← required Datum.asText? source
      target := ← required Datum.asText? target
      type := ← optional Datum.asText? type
      attributes := ← withDefault readAttributes ∅ attributes }
  | _ => none

/-- The family and the name of the device. -/
def readDevice (surplus : Surplus) (d : Datum) : Option (String × String) := do
  match ← fieldsOf surplus ["family", "name"] d with
  | [family, name] =>
    some (← withDefault Datum.asText? defaultFamily family, ← required Datum.asText? name)
  | _ => none

def ofDatum? (surplus : Surplus) (d : Datum) : Option Description := do
  match ← fieldsOf surplus ["device", "sites", "wires", "pips"] d with
  | [device, sites, wires, pips] =>
    let (family, name) ← required (readDevice surplus) device
    some {
      family, name
      sites := ← withDefault (readList (readSite surplus)) [] sites
      wires := ← withDefault (readList (readWire surplus)) [] wires
      pips := ← withDefault (readList (readPip surplus)) [] pips }
  | _ => none

/-- What a TOML document describes, before any check. -/
def described? (document : String) : Option Description :=
  (Toml.read document).bind (ofDatum? .allowed)

/-- Reads a TOML document and checks what it describes. -/
def load (document : String) : Except Fault Description := loadWith described? document

/-- Loads the contents of a file, if there is one. -/
def loadFile (contents : Option ByteArray) : Except Fault Description :=
  match contents with
  | none => .error .noFile
  | some bytes =>
    match String.fromUTF8? bytes with
    | none => .error .notText
    | some document => load document

end Fabric.Description
