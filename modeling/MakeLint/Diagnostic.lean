import MakeLint.Severity
import MakeLint.Warning.Class
/-!
# Diagnostics

A diagnostic is what the user sees of a problem after the action of its class has been applied. Only
a warning carries a severity. The class is named at the end of the line when the diagnostic stands
for a problem of its own, that is when it has a severity or a location, and not on the notes that
follow one.
-/

namespace MakeLint

/-- A line of a source, or a span of lines when the last line is given too. -/
structure Location where
  path : String
  line : Nat
  endLine : Option Nat := none
  deriving DecidableEq

def Location.render (l : Location) : String :=
  match l.endLine with
  | none => l.path ++ ":" ++ toString l.line
  | some last => l.path ++ ":" ++ toString l.line ++ "," ++ toString last

inductive Diagnostic.Kind where
  | warn
  | info
  | tip
  deriving DecidableEq

def Diagnostic.Kind.name : Kind → String
  | warn => "warn"
  | info => "info"
  | tip => "tip"

structure Diagnostic where
  cls : WarningClass
  kind : Diagnostic.Kind
  severity : Option Severity
  location : Option Location
  message : String
  deriving DecidableEq

namespace Diagnostic

def isWarning (d : Diagnostic) : Bool :=
  d.kind = .warn

/-- The line on standard error. -/
def render (d : Diagnostic) : String :=
  let place := match d.location with
    | none => ""
    | some l => l.render ++ ": "
  let cls := if d.severity.isSome || d.location.isSome then " (-w" ++ d.cls.name ++ ")" else ""
  "makel: [" ++ d.kind.name ++ "] " ++ place ++ d.message ++ cls

end Diagnostic

end MakeLint
