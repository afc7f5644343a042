import MakeLint.Config.File
import MakeLint.Environment
import MakeLint.Failure
/-!
# Searching for a configuration file

Without `--config` the file is looked for in a directory and then in each directory that the path of
the one before names as its parent, and last in the home directory. Parents are taken from the text of
the path, so a relative path leads up no further than to the empty path.
-/

namespace MakeLint

namespace ConfigSearch

def fileNames : List String :=
  [".makelrc", ".makelrc.toml", "makelrc.toml"]

def inDirectory? (v : FileView) (dir : Path) : Option Path :=
  (fileNames.map dir.join).find? v.exists?

/-- A directory and those that its path leads up through; every parent is shorter. -/
def climb : Nat → Path → List Path
  | 0, _ => []
  | fuel + 1, dir =>
    dir :: match dir.parent? with
      | none => []
      | some parent => climb fuel parent

def directories (start : Path) : List Path :=
  climb (start.text.length + 1) start

/-- The configuration file for a directory. -/
def find? (e : Environment) (start : Path) : Option Path :=
  (directories start ++ e.home.toList).findSome? (inDirectory? e.files)

end ConfigSearch

namespace FileConfig

def load (v : FileView) (path : Path) : Except Failure FileConfig :=
  match v.readText path with
  | .error cause => .error (.configUnreadable path cause)
  | .ok text =>
    match parse? text with
    | some f => .ok f
    | none => .error (.configUnparsable path)

end FileConfig

namespace Config

/-- The configuration merged with a parsed file. -/
def withFile (a : Arguments) (f : FileConfig) (path : Path) : Except Failure Config :=
  match (ofArguments a).merge a f with
  | .ok c => .ok c
  | .error name => .error (.configUnknownClass name path)

/-- The file that the configuration comes from, if any. -/
def file? (e : Environment) (a : Arguments) : Except Failure (Option Path) :=
  if a.noConfig then
    .ok none
  else
    match a.configFile with
    | some path => if e.files.exists? path then .ok (some path) else .error (.configNotFound path)
    | none => .ok (ConfigSearch.find? e (a.inputs.head?.getD e.files.currentPath))

/-- The configuration that command line and configuration file amount to. -/
def load (e : Environment) (a : Arguments) : Except Failure Config := do
  match ← file? e a with
  | none => .ok (ofArguments a)
  | some path => withFile a (← FileConfig.load e.files path) path

end Config

end MakeLint
