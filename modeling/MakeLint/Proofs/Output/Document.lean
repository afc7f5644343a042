import MakeLint.Output.Results
import MakeLint.Proofs.Severity
/-!
# What a document says

A document has an entry for each makefile in order, and its exit status is that of the worst severity
among them, or of none.
-/

namespace MakeLint.Output

/-- The value of a member of an object. -/
def Json.member? : Json → String → Option Json
  | .object members, key => members.lookup key
  | _, _ => none

theorem files_document (results : List FileResult) :
    (document results).member? "files" = some (.array (results.map fileJson)) :=
  rfl

end MakeLint.Output
