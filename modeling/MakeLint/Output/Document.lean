import MakeLint.Makefile.Linting
import MakeLint.Output.Json
/-!
# The JSON document

The results of a run as one document: the worst exit status, and an entry for each makefile in order.
A member that has no value is left out.
-/

namespace MakeLint.Output

def ifSome (key : String) (v : Option Json) : List (String × Json) :=
  v.toList.map fun j => (key, j)

def locationJson (l : Location) : Json :=
  .object
    ([("path", .string l.path), ("line", .number l.line)] ++
      ifSome "end_line" (l.endLine.map .number))

def severityJson (s : Option Severity) : List (String × Json) :=
  ifSome "severity" (s.map fun s => .string s.name)

def diagnosticJson (d : Diagnostic) : Json :=
  .object
    ([("class", .string d.cls.name), ("kind", .string d.kind.name)] ++ severityJson d.severity ++
      ifSome "location" (d.location.map locationJson) ++ [("message", .string d.message)])

def classesJson (n : ClassCounts) : Json :=
  .object
    [("empty", .number n.empty), ("blank", .number n.blank), ("comment", .number n.comment),
      ("command_line", .number n.commandLine), ("other", .number n.other)]

def fileJson (r : FileResult) : Json :=
  .object
    ([("file", .string r.report.file), ("lines", .number r.report.lines),
        ("bytes", .number r.report.bytes), ("classes", classesJson r.report.classes)] ++
      severityJson r.severity ++
      [("exit_status", .number r.exitStatus),
        ("diagnostics", .array (r.diagnostics.map diagnosticJson))])

def documentStatus (results : List FileResult) : Nat :=
  (results.map FileResult.exitStatus).foldl max 0

def document (results : List FileResult) : Json :=
  .object
    [("version", .string "1.0"), ("exit_status", .number (documentStatus results)),
      ("files", .array (results.map fileJson))]

end MakeLint.Output
