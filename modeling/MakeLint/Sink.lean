import MakeLint.Diagnostic
import MakeLint.Warning.Registry
/-!
# Sink

Checks report notices, and the registry decides which of them become diagnostics: a class that is
ignored yields none, and a warning of a class that only informs loses its severity. A sink keeps the
diagnostics of one run in order, and beside them the worst severity among them.
-/

namespace MakeLint

/-- What a check has to say before the registry is asked. -/
inductive Notice where
  | warn (cls : WarningClass) (severity : Severity) (location : Option Location) (message : String)
  | info (cls : WarningClass) (message : String)
  | tip (cls : WarningClass) (message : String)
  deriving DecidableEq

namespace Notice

def cls : Notice → WarningClass
  | warn c _ _ _ => c
  | info c _ => c
  | tip c _ => c

/-- The advice that goes with every line that is too long. -/
def longLineTip (cls : WarningClass) : Notice :=
  .tip cls
    ("you can put a <backslash> at the end of the line to continue it on the next line, " ++
      "except in or immediately preceding an include line")

end Notice

def Registry.diagnostic? (r : Registry) : Notice → Option Diagnostic
  | .warn cls severity location message =>
    match r.action cls with
    | .ignore => none
    | .inform => some ⟨cls, .info, none, location, message⟩
    | .style | .warn => some ⟨cls, .warn, some severity, location, message⟩
  | .info cls message =>
    if r.action cls = .ignore then none else some ⟨cls, .info, none, none, message⟩
  | .tip cls message =>
    if r.action cls = .ignore then none else some ⟨cls, .tip, none, none, message⟩

structure Sink where
  registry : Registry
  severity : Option Severity := none
  records : Array Diagnostic := #[]

namespace Sink

def add (s : Sink) (n : Notice) : Sink :=
  match s.registry.diagnostic? n with
  | none => s
  | some d => { s with severity := Severity.worst s.severity d.severity, records := s.records.push d }

def addAll (s : Sink) (notices : List Notice) : Sink :=
  notices.foldl add s

end Sink

end MakeLint
