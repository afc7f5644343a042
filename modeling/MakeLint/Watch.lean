import MakeLint.Run
/-!
# Watching a makefile

The makefile is linted once and then again when it changes, except for a change that comes too soon
after the last one that was acted on. Between changes the watch remembers when that was and the
severity of the last lint that could read the file.
-/

namespace MakeLint.Watch

/-- What the file system reports about the file. -/
inductive Change where
  | created
  | modified
  | other
  deriving DecidableEq

structure Event where
  /-- In milliseconds since the watch began. -/
  time : Nat
  change : Change
  /-- The files at that moment. -/
  files : FileView

structure State where
  lastLint : Nat
  severity : Option Severity

/-- Lints the file; one that cannot be read leaves the severity as it was. -/
def relint (v : FileView) (c : Config) (p : Paint) (path : Path) (previous : Option Severity) :
    List Message × Option Severity :=
  match Makefile.lintFile v c path with
  | .error cause => ([.error ("✗ Error reading file: " ++ cause.message)], previous)
  | .ok r =>
    let verdict := match r.severity with
      | some s => "✗ " ++ s.name ++ " (exit status " ++ toString s.rank ++ ")"
      | none => "✓ No warnings"
    (Output.result c p r ++ [.error verdict], r.severity)

def Change.counts : Change → Bool
  | created | modified => true
  | other => false

/-- The watch after an event, and what it says if it lints the file. -/
def step (c : Config) (p : Paint) (path : Path) (s : State) (ev : Event) :
    State × Option (List Message) :=
  if ev.change.counts && c.debounceMs ≤ ev.time - s.lastLint then
    let (messages, severity) := relint ev.files c p path s.severity
    (⟨ev.time, severity⟩, some messages)
  else
    (s, none)

/-- Begins to watch: what is said up to the end of the first lint. -/
def start (v : FileView) (c : Config) (p : Paint) (path : Path) :
    Except Failure (State × List Message) :=
  if !v.exists? path then .error (.watchedNotFound path)
  else if !v.isFile path then .error (.watchedDirectory path)
  else
    let (messages, severity) := relint v c p path none
    .ok (⟨0, severity⟩,
      .error ("Watching " ++ path.text ++ " for changes (Ctrl+C to stop)...") :: messages)

def farewell : Message :=
  .error "\nWatch mode stopped."

/-- The watch after a row of events, with what is said at each, nothing where it does not lint. -/
def run (c : Config) (p : Paint) (path : Path) :
    State → List Event → State × List (Option (List Message))
  | s, [] => (s, [])
  | s, ev :: rest =>
    let (s', said) := step c p path s ev
    let (last, later) := run c p path s' rest
    (last, said :: later)

end MakeLint.Watch
