import Fabric.Defect
import Fabric.Description.Reader
import Fabric.Device.Draft
import Fabric.Device.Listed
import Fabric.Exchange
import Fabric.Layout.Operation
import Fabric.Proofs.Atomicity
import Fabric.Proofs.Audit
import Fabric.Proofs.Availability
import Fabric.Proofs.Changes
import Fabric.Proofs.Conflicts
import Fabric.Proofs.Drivers
import Fabric.Proofs.Membership
import Fabric.Proofs.Undo
import Fabric.Proofs.Rebuild
import Fabric.Proofs.Locality
import Fabric.Proofs.LegalSites
import Fabric.Proofs.Interner
import Fabric.Proofs.Tables
import Fabric.Proofs.Additions
import Fabric.Proofs.Endpoints
import Fabric.Proofs.Validity
import Fabric.Proofs.Building
import Fabric.Proofs.History
import Fabric.Proofs.Growth
import Fabric.Proofs.Coherence
import Fabric.Proofs.InternerRun
import Fabric.Proofs.Portrait
import Fabric.Proofs.Allocation
import Fabric.Proofs.Release
import Fabric.Proofs.Counts
import Fabric.Proofs.PipRecords
