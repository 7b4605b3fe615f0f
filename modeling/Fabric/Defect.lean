import Fabric.Description.Basic
import Fabric.Ledger.Audit
/-!
Defects: inconsistencies inside the program that are reported and can be handled, in one form of
words.
-/

namespace Fabric

structure Defect where
  message : String
  deriving DecidableEq, Repr

def Defect.text (d : Defect) : String := s!"internal error: {d.message}"

def EntryError.defect (e : EntryError) : Defect := ⟨e.message⟩

def Discrepancy.defect (d : Discrepancy) : Defect := ⟨d.message⟩

end Fabric
