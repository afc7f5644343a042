import MakeLint.Path
import MakeLint.Style
import MakeLint.Warning.Override
/-!
# Arguments

What a command line asks for, before any configuration file is read. An option that was not given has
its default value.
-/

namespace MakeLint

inductive ColorMode where
  | auto
  | always
  | never
  deriving DecidableEq

namespace ColorMode

def all : List ColorMode :=
  [auto, always, never]

def name : ColorMode → String
  | auto => "auto"
  | always => "always"
  | never => "never"

def ofName? (name : String) : Option ColorMode :=
  all.find? (·.name == name)

end ColorMode

inductive Command where
  | classes
  | configInit (global : Bool)
  | configShow
  | configPath
  deriving DecidableEq

/-- The names that makefiles usually have. -/
def defaultGlob : String :=
  "makefile,Makefile,*.mk"

structure Arguments where
  inputs : List Path := []
  files : List String := []
  maxLineLength : Nat := defaultLineLength
  allowBlankLines : Bool := false
  overrides : List Override := []
  configFile : Option Path := none
  noConfig : Bool := false
  recursive : Bool := false
  glob : String := defaultGlob
  noGitignore : Bool := false
  maxDepth : Nat := 0
  verbose : Bool := false
  color : ColorMode := .auto
  json : Bool := false
  watch : Bool := false
  debounceMs : Nat := 500
  command : Option Command := none

end MakeLint
