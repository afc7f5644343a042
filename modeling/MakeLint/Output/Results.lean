import MakeLint.Failure
import MakeLint.Output.Document
import MakeLint.Output.Summary
/-!
# Showing results

Results are shown as one document on standard output, or as diagnostics on standard error with a
summary of each makefile if the user wants one.
-/

namespace MakeLint.Output

def diagnostics (ds : List Diagnostic) : List Message :=
  ds.map fun d => .error d.render

def failure (cause : Failure) : Message :=
  .error ("makel: [error] " ++ cause.message)

def result (c : Config) (p : Paint) (r : FileResult) : List Message :=
  diagnostics r.diagnostics ++ if c.verbose then fileSummary p r else []

def results (c : Config) (p : Paint) (rs : List FileResult) : List Message :=
  if c.json then [.out (document rs).text] else rs.flatMap (result c p)

end MakeLint.Output
