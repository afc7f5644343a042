import MakeLint.Lint
import MakeLint.Makefile.Selection
/-!
# Linting a makefile

A makefile is opened, read to its end and linted. Its result holds the report, the diagnostics that
the registry lets through and the worst severity among them.
-/

namespace MakeLint

structure FileResult where
  report : Report
  diagnostics : List Diagnostic
  severity : Option Severity

namespace FileResult

def exitStatus (r : FileResult) : Nat :=
  Severity.exitStatus r.severity

def ofSink (report : Report) (s : Sink) : FileResult :=
  ⟨report, s.records.toList, s.severity⟩

end FileResult

namespace Makefile

/-- The name of standard input in diagnostics. -/
def stdinName : String :=
  "<stdin>"

def readFile (v : FileView) (path : Path) : Except Failure Bytes :=
  match v.openable path, v.read path with
  | .error cause, _ => .error (.makefileNotOpened path cause)
  | .ok _, .error cause => .error (.makefileNotRead path.text cause)
  | .ok _, .ok content => .ok content

/-- Adds what linting a source finds. -/
def lintBytes (name : String) (style : Style) (content : Bytes) (s : Sink) : Report × Sink :=
  let (report, findings) := Lint.source name style content
  (report, s.addFindings findings)

def lintSource (v : FileView) (stdin : Bytes) (style : Style) (source : Source) (s : Sink) :
    Except Failure (Report × Sink) :=
  match source with
  | .stdin => .ok (lintBytes stdinName style stdin s)
  | .file path => (readFile v path).map fun content => lintBytes path.text style content s

/-- Lints one file on its own. -/
def lintFile (v : FileView) (c : Config) (path : Path) : Except Failure FileResult :=
  (readFile v path).map fun content =>
    let (report, s) := lintBytes path.text c.style content { registry := c.warnings }
    .ofSink report s

end Makefile

end MakeLint
