import MakeLint.Arguments
/-!
# Options

The options of the main command: how they are written, which take a value, which may be repeated, and
what a value does to the arguments.
-/

namespace MakeLint.Arguments

/-- Why a command line is turned down. Asking for help or for the version ends the reading of the
command line just as an error does. -/
inductive UsageError where
  | unknownArgument
  /-- A value is missing, is empty where it may not be, or is none of those allowed. -/
  | invalidValue
  /-- A value was read and rejected. -/
  | valueValidation
  | argumentConflict
  | missingRequiredArgument
  | tooManyValues
  | invalidSubcommand
  | displayHelp
  | displayVersion
  | displayHelpOnMissingArgumentOrSubcommand
  deriving DecidableEq

def UsageError.name : UsageError → String
  | unknownArgument => "UnknownArgument"
  | invalidValue => "InvalidValue"
  | valueValidation => "ValueValidation"
  | argumentConflict => "ArgumentConflict"
  | missingRequiredArgument => "MissingRequiredArgument"
  | tooManyValues => "TooManyValues"
  | invalidSubcommand => "InvalidSubcommand"
  | displayHelp => "DisplayHelp"
  | displayVersion => "DisplayVersion"
  | displayHelpOnMissingArgumentOrSubcommand => "DisplayHelpOnMissingArgumentOrSubcommand"

def UsageError.exitStatus : UsageError → Nat
  | displayHelp | displayVersion => 0
  | _ => 8

inductive Opt where
  | file
  | maxLineLength
  | allowBlankLines
  | warning
  | config
  | noConfig
  | recursive
  | glob
  | noGitignore
  | maxDepth
  | verbose
  | color
  | json
  | watch
  | debounceMs
  | help
  | version
  deriving DecidableEq

namespace Opt

def ofLetter? : Char → Option Opt
  | 'f' => some file
  | 'l' => some maxLineLength
  | 'w' => some warning
  | 'r' => some recursive
  | 'v' => some verbose
  | 'h' => some help
  | 'V' => some version
  | _ => none

def ofName? : String → Option Opt
  | "file" => some file
  | "max-line-length" => some maxLineLength
  | "allow-blank-lines" => some allowBlankLines
  | "warning" => some warning
  | "config" => some config
  | "no-config" => some noConfig
  | "recursive" => some recursive
  | "glob" => some glob
  | "no-gitignore" => some noGitignore
  | "max-depth" => some maxDepth
  | "verbose" => some verbose
  | "color" => some color
  | "json" => some json
  | "watch" => some watch
  | "debounce-ms" => some debounceMs
  | "help" => some help
  | "version" => some version
  | _ => none

def takesValue : Opt → Bool
  | file | maxLineLength | warning | config | glob | maxDepth | color | debounceMs => true
  | _ => false

def repeatable : Opt → Bool
  | file | warning => true
  | _ => false

/-- The option without which this one may not be given. -/
def requirement? : Opt → Option Opt
  | glob | noGitignore | maxDepth => some recursive
  | debounceMs => some watch
  | _ => none

/-- Two options that may not be given together. -/
def conflicts : Opt → Opt → Bool
  | json, verbose | verbose, json => true
  | watch, recursive | recursive, watch => true
  | watch, json | json, watch => true
  | _, _ => false

end Opt

/-- A number below 2^64, in decimal digits that may follow a plus sign. -/
def number? (s : String) : Option Nat :=
  let digits := match s.toList with
    | '+' :: rest => rest
    | cs => cs
  if digits.isEmpty || digits.any (!·.isDigit) then
    none
  else
    let n := digits.foldl (fun n c => n * 10 + (c.toNat - '0'.toNat)) 0
    if n < 0x10000000000000000 then some n else none

def numberValue (s : String) : Except UsageError Nat :=
  match number? s with
  | some n => .ok n
  | none => .error .valueValidation

/-- The arguments after an option that takes a value. -/
def setValue (a : Arguments) (o : Opt) (value : String) : Except UsageError Arguments :=
  match o with
  | .file => .ok { a with files := a.files ++ [value] }
  | .maxLineLength => (numberValue value).map fun n => { a with maxLineLength := n }
  | .warning =>
    match Override.parse value with
    | .ok w => .ok { a with overrides := a.overrides ++ [w] }
    | .error _ => .error .valueValidation
  | .config => if value = "" then .error .invalidValue else .ok { a with configFile := some ⟨value⟩ }
  | .glob => .ok { a with glob := value }
  | .maxDepth => (numberValue value).map fun n => { a with maxDepth := n }
  | .color =>
    match ColorMode.ofName? value with
    | some mode => .ok { a with color := mode }
    | none => .error .invalidValue
  | .debounceMs => (numberValue value).map fun n => { a with debounceMs := n }
  | _ => .ok a

/-- The arguments after an option that takes no value. -/
def setFlag (a : Arguments) : Opt → Except UsageError Arguments
  | .allowBlankLines => .ok { a with allowBlankLines := true }
  | .noConfig => .ok { a with noConfig := true }
  | .recursive => .ok { a with recursive := true }
  | .noGitignore => .ok { a with noGitignore := true }
  | .verbose => .ok { a with verbose := true }
  | .json => .ok { a with json := true }
  | .watch => .ok { a with watch := true }
  | .help => .error .displayHelp
  | .version => .error .displayVersion
  | _ => .ok a

end MakeLint.Arguments
