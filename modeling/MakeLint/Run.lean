import MakeLint.Discovery
import MakeLint.Output.Results
/-!
# Linting runs

One makefile is linted together with its selection, whose diagnostics count as well; several are
linted each on its own, and the failure of one neither stops nor changes the others. A run ends with
the worst severity it has reached or with a failure.
-/

namespace MakeLint

/-- What a run says, and the severity that it ends with. -/
structure Run where
  messages : List Message
  ending : Except Failure (Option Severity)

namespace Run

/-- The exit status of the process. -/
def exitStatus (r : Run) : Nat :=
  match r.ending with
  | .ok severity => Severity.exitStatus severity
  | .error _ => Failure.exitStatus

def fail (cause : Failure) : Run :=
  ⟨[], .error cause⟩

/-- What is said, the failure at the end included. -/
def allMessages (r : Run) : List Message :=
  match r.ending with
  | .ok _ => r.messages
  | .error cause => r.messages ++ [Output.failure cause]

/-! ### One makefile -/

def selected (e : Environment) (c : Config) (p : Paint) (files : List String) : Run :=
  let (source, notices) := Makefile.select e.files files ⟨""⟩
  let sink := Sink.addAll { registry := c.warnings } notices
  match source with
  | .error cause => ⟨Output.diagnostics sink.records.toList, .error cause⟩
  | .ok source =>
    match Makefile.lintSource e.files e.stdin c.style source sink with
    | .error cause => ⟨Output.diagnostics sink.records.toList, .error cause⟩
    | .ok (report, sink) => ⟨Output.results c p [.ofSink report sink], .ok sink.severity⟩

/-! ### Several makefiles -/

/-- The result of each file that could be linted, in order. -/
def resultsOf (v : FileView) (c : Config) (paths : List Path) : List FileResult :=
  paths.filterMap fun path => (Makefile.lintFile v c path).toOption

/-- The files that could not be linted, in order, with what went wrong. -/
def failuresOf (v : FileView) (c : Config) (paths : List Path) : List (Path × Failure) :=
  paths.filterMap fun path =>
    match Makefile.lintFile v c path with
    | .ok _ => none
    | .error cause => some (path, cause)

def fileFailure (path : Path) (cause : Failure) : Message :=
  .error ("makel: [error] " ++ path.text ++ ": " ++ cause.message)

def files (v : FileView) (c : Config) (p : Paint) (paths : List Path) : Run :=
  let results := resultsOf v c paths
  let failures := failuresOf v c paths
  { messages :=
      failures.map (fun (path, cause) => fileFailure path cause) ++ Output.results c p results ++
        if c.verbose then Output.runSummary p results failures.length else []
    ending :=
      if failures.isEmpty then .ok (Severity.worstOf (results.map FileResult.severity))
      else .error (.filesFailed (failures.map (·.1))) }

/-- A hint, on the console if the user wants to hear more. -/
def hint (c : Config) (p : Paint) (text : String) : Message :=
  if c.verbose then .console (p.dim (.text text)) else .error text

def remarkMessages (c : Config) (p : Paint) (remarks : List Discovery.Remark) : List Message :=
  if c.verbose then remarks.map fun r => .console (p.dim (.text ("Warning: " ++ r.message)))
  else []

def discovered (e : Environment) (c : Config) (p : Paint) (inputs : List Path) : Run :=
  match Discovery.discover e c (if inputs.isEmpty then [⟨"."⟩] else inputs) with
  | .error cause => fail cause
  | .ok found =>
    let said := remarkMessages c p found.remarks
    if found.files.isEmpty then
      ⟨said ++ [hint c p ("Warning: No files matched pattern '" ++ c.glob ++ "' in provided paths")],
        .ok none⟩
    else
      let run := files e.files c p found.files
      { run with messages := said ++ run.messages }

end Run

end MakeLint
