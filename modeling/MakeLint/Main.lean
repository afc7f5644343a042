import MakeLint.Arguments.Help
import MakeLint.Snapshot
/-!
# The program

Reads the arguments, the environment and the files, and writes what the command line has to say. A
watch looks at the file every tenth of a second until it is interrupted.
-/

namespace MakeLint

/-- The environment variables that a run asks for. -/
def variableNames : List String :=
  ["HOME", "XDG_CONFIG_HOME", "GIT_CONFIG_GLOBAL", "FORCE_COLOR", "NO_COLOR", "COLORTERM", "TERM"]

def settings : IO (List (String × String)) :=
  variableNames.filterMapM fun name => do
    return (← IO.getEnv name).map fun value => (name, value)

/-- Milliseconds with two decimals. -/
def millisecondsText (nanoseconds : Nat) : String :=
  let hundredths := (nanoseconds + 5000) / 10000
  let decimals := toString (hundredths % 100)
  toString (hundredths / 100) ++ "." ++ (if decimals.length < 2 then "0" ++ decimals else decimals)

def say (escapes : Bool) (elapsed : String) (messages : List Message) : IO Unit :=
  messages.forM fun m => do
    IO.print (m.outText escapes elapsed)
    IO.eprint m.errorText

partial def readAll (input : IO.FS.Stream) (acc : ByteArray) : IO Bytes := do
  let chunk ← input.read 65536
  if chunk.isEmpty then return acc.toList else readAll input (acc ++ chunk)

/-- Creates the configuration file that the command line has asked for. -/
def createConfig (e : Environment) (global : Bool) : IO UInt32 := do
  let written ← match CommandLine.initConfig e global with
    | .error cause => pure (Except.error cause)
    | .ok (path, _) =>
      try
        IO.FS.writeFile path.text FileConfig.template
        pure (.ok path)
      catch
        | .noFileOrDirectory .. => pure (.error (.configNotWritten path .notFound))
        | _ => pure (.error (.configNotWritten path .permissionDenied))
  match written with
  | .ok path =>
    IO.eprintln ("Created config file: " ++ path.text)
    return 0
  | .error cause =>
    say false "" [Output.failure cause]
    return UInt32.ofNat Failure.exitStatus

/-- Looks at the file again and again. -/
partial def keepWatching (c : Config) (console : Console) (path : Path) (began : Nat)
    (state : Watch.State) (seen : Option (IO.FS.SystemTime × UInt64)) : IO UInt32 := do
  IO.sleep 100
  let now ← try
      let data ← ((← IO.currentDir) / path.text).metadata
      pure (some (data.modified, data.byteSize))
    catch _ => pure none
  if now == seen then
    keepWatching c console path began state seen
  else
    let files : FileView := ⟨← Snapshot.path (.directory []) path, ← Snapshot.currentPlace⟩
    let time := (← IO.monoMsNow) - began
    let change : Watch.Change := if now.isSome then .modified else .other
    let before ← IO.monoNanosNow
    let (state, said) ← IO.lazyPure fun _ =>
      Watch.step c console.paint path state ⟨time, change, files⟩
    let elapsed := millisecondsText ((← IO.monoNanosNow) - before)
    say console.escapes elapsed (said.getD [])
    keepWatching c console path began state now

def watchFile (e : Environment) (c : Config) (path : Path) : IO UInt32 := do
  let console := CommandLine.consoleFor e c
  let before ← IO.monoNanosNow
  let begun ← IO.lazyPure fun _ => Watch.start e.files c console.paint path
  match begun with
  | .error cause =>
    say false "" [Output.failure cause]
    return UInt32.ofNat Failure.exitStatus
  | .ok (state, messages) =>
    let elapsed := millisecondsText ((← IO.monoNanosNow) - before)
    say console.escapes elapsed messages
    let data ← ((← IO.currentDir) / path.text).metadata
    keepWatching c console path (← IO.monoMsNow) state
      (some (data.modified, data.byteSize))

def runArguments (a : Arguments) : IO UInt32 := do
  let home := match ← IO.getEnv "HOME" with
    | some dir => if dir.isEmpty then none else some (Path.mk dir)
    | none => none
  let stdin ← if a.command.isNone && a.files.getLast? = some "-" then
      readAll (← IO.getStdin) ByteArray.empty
    else
      pure []
  let e ← Snapshot.environment a home stdin (← settings)
  match a.command, CommandLine.configFor e a with
  | some (.configInit global), _ => createConfig e global
  | none, .ok c =>
    if c.watch then
      watchFile e c (CommandLine.watchedPath a)
    else
      report e
  | _, _ => report e
where
  report (e : Environment) : IO UInt32 := do
    let before ← IO.monoNanosNow
    let o ← IO.lazyPure fun _ => CommandLine.outcome e a
    let elapsed := millisecondsText ((← IO.monoNanosNow) - before)
    say o.escapes elapsed o.messages
    return UInt32.ofNat o.exitStatus

end MakeLint

def main (words : List String) : IO UInt32 := do
  match MakeLint.Arguments.parse words with
  | .ok a => MakeLint.runArguments a
  | .error usage =>
    let (out, err) := usage.answer
    IO.print out
    IO.eprint err
    return UInt32.ofNat usage.exitStatus
