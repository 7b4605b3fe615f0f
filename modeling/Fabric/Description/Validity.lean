import Fabric.Description.Endpoints
/-!
Validity of a description: the device and every entry have a name, every site a type, names are
distinct within a kind, and every pip connects declared wires. The check reports the first fault in
this order of phases.
-/

namespace Fabric.Description

def checkDeviceName (d : Description) : Except Fault Unit :=
  if d.name = "" then .error (.missing .deviceName) else .ok ()

def checkSiteTypes : List SiteEntry → Except Fault Unit
  | [] => .ok ()
  | s :: r => if s.type = "" then .error (.missing (.siteType s.name)) else checkSiteTypes r

/-- Checks names from left to right; `seen` are those before them. -/
def checkNames (kind : Kind) (seen : List String) : List String → Except Fault Unit
  | [] => .ok ()
  | n :: r =>
    if n = "" then .error (.missing (.nameOf kind))
    else if n ∈ seen then .error (.duplicateName kind n)
    else checkNames kind (n :: seen) r

def validate (d : Description) : Except Fault Unit := do
  d.checkDeviceName
  checkSiteTypes d.sites
  checkNames .site [] (d.sites.map (·.name))
  checkNames .wire [] d.wireNames
  checkNames .pip [] (d.pips.map (·.name))
  let _ ← d.endpoints
  .ok ()

/-- Loads a document with a reader of descriptions, and checks what it describes. -/
def loadWith (read : String → Option Description) (document : String) : Except Fault Description :=
  match read document with
  | none => .error .malformed
  | some d => do
    d.validate
    .ok d

end Fabric.Description
