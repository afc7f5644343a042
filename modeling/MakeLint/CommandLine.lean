import MakeLint.Arguments.Reader
import MakeLint.Config.Template
import MakeLint.Output.Color
import MakeLint.Watch
/-!
# The command line

What the program does with its arguments: a subcommand, or a run. The outcome holds everything that a
caller can see: what is said, the exit status and the files afterwards.
-/

namespace MakeLint

structure Outcome where
  messages : List Message
  exitStatus : Nat
  /-- Whether the console uses escape sequences. -/
  escapes : Bool
  files : FileView

namespace CommandLine

/-! ### Subcommands -/

/-- A name and blanks up to the column of the actions. -/
def padded (name : String) : String :=
  name ++ String.ofList (List.replicate (26 - name.length) ' ')

def classLines (r : Registry) : List Message :=
  WarningClass.all.map fun cls => .out (padded cls.name ++ (r.action cls).name)

def boolText (b : Bool) : String :=
  if b then "true" else "false"

def colorText : ColorMode → String
  | .auto => "Auto"
  | .always => "Always"
  | .never => "Never"

def bracketText : BracketStyle → String
  | .inconsistent => "Inconsistent"
  | .round => "Round"
  | .curly => "Curly"

def configLines (c : Config) : List String :=
  ["Effective configuration:",
    "  max_line_length: " ++ toString c.style.maxLineLength,
    "  only_empty_blank_lines: " ++ boolText c.style.onlyEmptyBlankLines,
    "  macro_bracket_style: " ++ bracketText c.style.bracketStyle,
    "  verbose: " ++ boolText c.verbose,
    "  color: " ++ colorText c.color,
    "  json: " ++ boolText c.json,
    "  recursive: " ++ boolText c.recursive,
    "  glob: " ++ c.glob,
    "  gitignore: " ++ boolText c.gitignore,
    "  max_depth: " ++ toString c.maxDepth,
    "  warnings:"] ++
  WarningClass.all.map fun cls => "    " ++ cls.name ++ ": " ++ (c.warnings.action cls).name

/-- The file that the search finds from the current directory. -/
def foundFile? (e : Environment) : Option Path :=
  ConfigSearch.find? e e.files.currentPath

def initPath (e : Environment) (global : Bool) : Except Failure Path :=
  if global then
    match e.home with
    | some home => .ok (home.join ".makelrc")
    | none => .error .noHome
  else
    .ok ⟨".makelrc"⟩

/-- Creates a configuration file where there is none. -/
def initConfig (e : Environment) (global : Bool) : Except Failure (Path × FileView) := do
  let path ← initPath e global
  if e.files.exists? path then
    .error (.configExists path)
  else
    match e.files.write path (Bytes.ofString FileConfig.template) with
    | .ok files => .ok (path, files)
    | .error cause => .error (.configNotWritten path cause)

def quiet (e : Environment) (messages : List Message) (exitStatus : Nat) : Outcome :=
  ⟨messages, exitStatus, false, e.files⟩

def failed (e : Environment) (cause : Failure) : Outcome :=
  quiet e [Output.failure cause] Failure.exitStatus

def command (e : Environment) (a : Arguments) : Command → Outcome
  | .classes =>
    match Config.load e a with
    | .error cause => failed e cause
    | .ok c => quiet e (classLines c.warnings) 0
  | .configInit global =>
    match initConfig e global with
    | .error cause => failed e cause
    | .ok (path, files) =>
      { quiet e [.error ("Created config file: " ++ path.text)] 0 with files := files }
  | .configShow =>
    match Config.load e a with
    | .error cause => failed e cause
    | .ok c =>
      let file := match foundFile? e with
        | some path => ["", "Config file: " ++ path.text]
        | none => []
      quiet e ((configLines c ++ file).map .error) 0
  | .configPath =>
    match foundFile? e with
    | some path => quiet e [.out path.text] 0
    | none => quiet e [.error "No config file found"] 1

/-! ### Runs -/

/-- The configuration of a run that its arguments fit. -/
def configFor (e : Environment) (a : Arguments) : Except Failure Config := do
  let c ← Config.load e a
  match c.misuse? a with
  | some cause => .error (.misuse cause)
  | none => .ok c

def consoleFor (e : Environment) (c : Config) : Console :=
  Console.ofMode c.color e

def watchedPath (a : Arguments) : Path :=
  ⟨a.files.head?.getD ""⟩

/-- A watch that is stopped before anything changes. -/
def watchOnce (e : Environment) (c : Config) (p : Paint) (path : Path) : Run :=
  match Watch.start e.files c p path with
  | .error cause => Run.fail cause
  | .ok (s, messages) => ⟨messages ++ [Watch.farewell], .ok s.severity⟩

def runFor (e : Environment) (a : Arguments) (c : Config) (p : Paint) : Run :=
  if c.watch then watchOnce e c p (watchedPath a)
  else if c.recursive then Run.discovered e c p a.inputs
  else Run.selected e c p a.files

def outcome (e : Environment) (a : Arguments) : Outcome :=
  match a.command with
  | some cmd => command e a cmd
  | none =>
    match configFor e a with
    | .error cause => failed e cause
    | .ok c =>
      let console := consoleFor e c
      let run := runFor e a c console.paint
      ⟨run.allMessages, run.exitStatus, console.escapes, e.files⟩

end CommandLine

end MakeLint
