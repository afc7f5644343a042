import MakeLint.Config
import MakeLint.Toml.Parser
/-!
# Configuration files

A configuration file is a TOML document in which every key is optional and unknown keys are skipped.
An entry of the file counts only where the command line has left the default; overrides of the
command line come after those of the file, so that they win.
-/

namespace MakeLint

structure FileConfig where
  maxLineLength : Option Nat := none
  onlyEmptyBlankLines : Option Bool := none
  bracketStyle : Option BracketStyle := none
  verbose : Option Bool := none
  color : Option ColorMode := none
  json : Option Bool := none
  recursive : Option Bool := none
  glob : Option String := none
  gitignore : Option Bool := none
  maxDepth : Option Nat := none
  /-- Class names, known or not, with their actions. -/
  warnings : List (String × Action) := []
  deriving DecidableEq

namespace FileConfig

open Toml

/-! ### Reading -/

def bool? : Value → Option Bool
  | .boolean b => some b
  | _ => none

def size? : Value → Option Nat
  | .integer n => if 0 ≤ n then some n.toNat else none
  | _ => none

def text? : Value → Option String
  | .string s => some s
  | _ => none

def isEmpty : Value → Bool
  | .array [] | .table _ [] => true
  | _ => false

/-- A name is written as a string, or as a table whose only key it is, with nothing in it. -/
def name? : Value → Option String
  | .string s => some s
  | .table _ [(name, v)] => if isEmpty v then some name else none
  | _ => none

def bracketStyle? (v : Value) : Option BracketStyle := do
  match ← name? v with
  | "inconsistent" => some .inconsistent
  | "round" => some .round
  | "curly" => some .curly
  | _ => none

def action? (v : Value) : Option Action := do
  let name ← name? v
  Action.all.find? (·.name == name)

def warnings? : Value → Option (List (String × Action))
  | .table _ entries => entries.mapM fun (name, v) => (action? v).map fun a => (name, a)
  | _ => none

/-- An entry that may be missing but not ill-typed. -/
def entry {α : Type} (entries : Entries) (key : String) (read : Value → Option α) :
    Option (Option α) :=
  match entries.get? key with
  | none => some none
  | some v => (read v).map some

def ofEntries? (entries : Entries) : Option FileConfig := do
  some
    { maxLineLength := ← entry entries "max_line_length" size?
      onlyEmptyBlankLines := ← entry entries "only_empty_blank_lines" bool?
      bracketStyle := ← entry entries "macro_bracket_style" bracketStyle?
      verbose := ← entry entries "verbose" bool?
      color := ← entry entries "color" fun v => (name? v).bind ColorMode.ofName?
      json := ← entry entries "json" bool?
      recursive := ← entry entries "recursive" bool?
      glob := ← entry entries "glob" text?
      gitignore := ← entry entries "gitignore" bool?
      maxDepth := ← entry entries "max_depth" size?
      warnings := (← entry entries "warnings" warnings?).getD [] }

/-- The configuration that the text of a file holds. -/
def parse? (text : String) : Option FileConfig :=
  (Toml.parse? text).bind ofEntries?

/-! ### Merging -/

/-- The overrides of the file, or the first name that is no class. -/
def overrides (f : FileConfig) : Except String (List Override) :=
  f.warnings.mapM fun (name, action) =>
    match WarningClass.ofName? name with
    | some cls => .ok ⟨cls, action⟩
    | none => .error name

/-- The file's entry where the command line has left the default. -/
def choose {α : Type} (isDefault : Bool) (entry : Option α) (value : α) : α :=
  if isDefault then entry.getD value else value

end FileConfig

open FileConfig in
/-- A configuration merged with a file, or the name of an unknown class in it. -/
def Config.merge (c : Config) (a : Arguments) (f : FileConfig) : Except String Config :=
  f.overrides.map fun overrides =>
    { c with
      style :=
        { maxLineLength := choose (a.maxLineLength = defaultLineLength) f.maxLineLength c.style.maxLineLength
          onlyEmptyBlankLines :=
            choose (!a.allowBlankLines) f.onlyEmptyBlankLines c.style.onlyEmptyBlankLines
          bracketStyle := f.bracketStyle.getD c.style.bracketStyle }
      warnings := Registry.withOverrides (overrides ++ a.overrides)
      verbose := choose (!a.verbose) f.verbose c.verbose
      color := choose (a.color = .auto) f.color c.color
      json := choose (!a.json) f.json c.json
      recursive := choose (!a.recursive) f.recursive c.recursive
      glob := choose (a.glob = defaultGlob) f.glob c.glob
      gitignore := choose (!a.noGitignore) f.gitignore c.gitignore
      maxDepth := choose (a.maxDepth = 0) f.maxDepth c.maxDepth }

end MakeLint
