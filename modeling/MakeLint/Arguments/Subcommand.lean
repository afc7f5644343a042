import MakeLint.Arguments.Option
/-!
# Subcommands

The command line after the name of a subcommand. No option of the main command is known there: each
subcommand has its own help, and only `config init` has another option.
-/

namespace MakeLint.Arguments

/-- A word of the command line. -/
inductive Word where
  /-- Two dashes alone end the options. -/
  | endOfOptions
  | long (name : String) (value : Option String)
  | short (letters : List Char)
  | plain (text : String)
  deriving DecidableEq

def Word.ofString (s : String) : Word :=
  match s.toList with
  | ['-', '-'] => .endOfOptions
  | '-' :: '-' :: rest =>
    match Text.splitFirst? '=' rest with
    | none => .long (String.ofList rest) none
    | some (name, value) => .long (String.ofList name) (some (String.ofList value))
  | '-' :: c :: rest => .short (c :: rest)
  | _ => .plain s

/-- The words of a subcommand that takes no operands; `global` is the option of `config init`, and
`given` says that it has been seen. -/
def readLeaf (hasGlobal given : Bool) : List String → Except UsageError Bool
  | [] => .ok given
  | s :: rest =>
    match Word.ofString s with
    | .endOfOptions => if rest.isEmpty then .ok given else .error .unknownArgument
    | .long "help" none => .error .displayHelp
    | .long "help" (some _) => .error .tooManyValues
    | .long "global" value =>
      if !hasGlobal then .error .unknownArgument
      else if value.isSome then .error .tooManyValues
      else if given then .error .argumentConflict
      else readLeaf hasGlobal true rest
    | .short ('h' :: _) => .error .displayHelp
    | _ => .error .unknownArgument

/-- The words after `config help`, each the name of a subcommand of the one before. -/
def readConfigHelp : List String → UsageError
  | [] | ["init"] | ["show"] | ["path"] | ["help"] => .displayHelp
  | _ => .invalidSubcommand

/-- The words after `help`. -/
def readHelp : List String → UsageError
  | [] | ["classes"] | ["help"] => .displayHelp
  | "config" :: rest => readConfigHelp rest
  | _ => .invalidSubcommand

def readConfig : List String → Except UsageError Command
  | [] => .error .displayHelpOnMissingArgumentOrSubcommand
  | "init" :: rest => (readLeaf true false rest).map .configInit
  | "show" :: rest => (readLeaf false false rest).map fun _ => .configShow
  | "path" :: rest => (readLeaf false false rest).map fun _ => .configPath
  | "help" :: rest => .error (readConfigHelp rest)
  | s :: rest =>
    match Word.ofString s with
    | .endOfOptions =>
      match rest with
      | [] => .error .displayHelpOnMissingArgumentOrSubcommand
      | word :: _ =>
        if word ∈ ["init", "show", "path", "help"] then .error .unknownArgument
        else .error .invalidSubcommand
    | .long "help" none => .error .displayHelp
    | .long "help" (some _) => .error .tooManyValues
    | .long _ _ => .error .unknownArgument
    | .short ('h' :: _) => .error .displayHelp
    | .short _ => .error .unknownArgument
    | .plain _ => .error .invalidSubcommand

/-- The subcommand that a word starts, given the words after it. -/
def subcommand? (word : String) (rest : List String) : Option (Except UsageError Command) :=
  match word with
  | "classes" => some ((readLeaf false false rest).map fun _ => .classes)
  | "config" => some (readConfig rest)
  | "help" => some (.error (readHelp rest))
  | _ => none

end MakeLint.Arguments
