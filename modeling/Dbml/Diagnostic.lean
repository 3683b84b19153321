import Dbml.Location

/-!
# Diagnostics

What a reader of a document is told about a line or block that was passed over or taken in part.
-/

namespace Dbml

structure Diagnostic where
  location : Location
  reason : String
  deriving DecidableEq, Repr, Inhabited

namespace Diagnostic

def text (d : Diagnostic) : String :=
  s!"{d.location.text}: {d.reason}"

/-- The diagnostics by location; those of one location keep their order. -/
def sort (ds : List Diagnostic) : List Diagnostic :=
  ds.mergeSort fun a b => a.location.isAtMost b.location

end Diagnostic

end Dbml
