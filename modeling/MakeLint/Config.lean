import MakeLint.Arguments
import MakeLint.Warning.Registry
/-!
# Configuration

What a run goes by, after command line and configuration file have been merged.
-/

namespace MakeLint

structure Config where
  style : Style
  warnings : Registry
  recursive : Bool
  glob : String
  gitignore : Bool
  maxDepth : Nat
  color : ColorMode
  verbose : Bool
  json : Bool
  watch : Bool
  debounceMs : Nat

namespace Config

/-- The configuration when there is no file. -/
def ofArguments (a : Arguments) : Config where
  style := { maxLineLength := a.maxLineLength, onlyEmptyBlankLines := !a.allowBlankLines }
  warnings := Registry.withOverrides a.overrides
  recursive := a.recursive
  glob := a.glob
  gitignore := !a.noGitignore
  maxDepth := a.maxDepth
  color := a.color
  verbose := a.verbose
  json := a.json
  watch := a.watch
  debounceMs := a.debounceMs

/-- What makes a configuration unusable for its command line. -/
inductive Misuse where
  | zeroLineLength
  | operandsWithoutRecursion
  | fileWithRecursion
  | watchWithoutFile
  deriving DecidableEq

def Misuse.message : Misuse → String
  | zeroLineLength => "--max-line-length must be at least 1"
  | operandsWithoutRecursion => "DIR operands require --recursive; use -f to select a makefile"
  | fileWithRecursion => "--file cannot be combined with --recursive"
  | watchWithoutFile => "--watch requires exactly one -f <makefile>"

/-- The first misuse, if there is one. -/
def misuse? (c : Config) (a : Arguments) : Option Misuse :=
  if c.style.maxLineLength = 0 then some .zeroLineLength
  else if !a.inputs.isEmpty && !c.recursive then some .operandsWithoutRecursion
  else if c.recursive && !a.files.isEmpty then some .fileWithRecursion
  else if c.watch then
    match a.files with
    | [file] => if file = "-" then some .watchWithoutFile else none
    | _ => some .watchWithoutFile
  else none

end Config

end MakeLint
