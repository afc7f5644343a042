import MakeLint.Arguments.Subcommand
/-!
# Reading the command line

The words are read from left to right and reading stops at the first error. The value of an option,
and a row of operands, are held back until the next option or the end: an unknown option that comes
before then is reported first. What is given together is checked last.
-/

namespace MakeLint.Arguments

/-- What has been read and not yet accepted. -/
inductive Pending where
  | nothing
  | option (o : Opt) (value : Option String)
  | operands (paths : List String)
  deriving DecidableEq

structure Reader where
  arguments : Arguments := {}
  given : List Opt := []
  pending : Pending := .nothing
  /-- Options have ended. -/
  trailing : Bool := false

namespace Reader

/-- Accepts an option: a second one is an error unless the option may be repeated. -/
def accept (r : Reader) (o : Opt) (set : Arguments → Except UsageError Arguments) :
    Except UsageError Reader :=
  if !o.repeatable && r.given.contains o then
    .error .argumentConflict
  else
    (set r.arguments).map fun a => { r with arguments := a, given := o :: r.given }

def acceptOperands (r : Reader) (paths : List String) : Except UsageError Reader :=
  if paths.any (· = "") then
    .error .invalidValue
  else
    let inputs := r.arguments.inputs ++ paths.map Path.mk
    .ok { r with arguments := { r.arguments with inputs := inputs } }

/-- Accepts what is pending. -/
def settle (r : Reader) : Except UsageError Reader :=
  let rest := { r with pending := .nothing }
  match r.pending with
  | .nothing => .ok rest
  | .option _ none => .error .invalidValue
  | .option o (some value) => rest.accept o (·.setValue o value)
  | .operands paths => rest.acceptOperands paths

/-- An option with a value attached to it. -/
def attached (r : Reader) (o : Opt) (value : String) : Except UsageError Reader := do
  (← r.settle).accept o (·.setValue o value)

def flag (r : Reader) (o : Opt) : Except UsageError Reader := do
  (← r.settle).accept o (·.setFlag o)

/-- An option whose value is the next word. -/
def await (r : Reader) (o : Opt) : Except UsageError Reader := do
  return { (← r.settle) with pending := .option o none }

def long (r : Reader) (name : String) (value : Option String) : Except UsageError Reader :=
  match Opt.ofName? name with
  | none => .error .unknownArgument
  | some o =>
    match o.takesValue, value with
    | true, some v => r.attached o v
    | true, none => r.await o
    | false, some _ => .error .tooManyValues
    | false, none => r.flag o

/-- Letters after one dash: flags, and at most one option with the rest of the word as its value. -/
def short (r : Reader) : List Char → Except UsageError Reader
  | [] => .ok r
  | c :: rest =>
    match Opt.ofLetter? c with
    | none => .error .unknownArgument
    | some o =>
      if o.takesValue then
        match rest with
        | [] => r.await o
        | '=' :: value => r.attached o (String.ofList value)
        | value => r.attached o (String.ofList value)
      else do
        (← r.flag o).short rest

def operand (r : Reader) (s : String) : Except UsageError Reader :=
  match r.pending with
  | .operands paths => .ok { r with pending := .operands (paths ++ [s]) }
  | _ => r.settle.map fun r => { r with pending := .operands [s] }

/-- A word that is no option: the value that an option waits for, or else an operand. -/
def plain (r : Reader) (s : String) : Except UsageError Reader :=
  match r.pending with
  | .option o none => .ok { r with pending := .option o (some s) }
  | _ => r.operand s

/-- A subcommand is looked for unless the word before asks for a value or is an operand. -/
def atCommand (r : Reader) : Bool :=
  match r.pending with
  | .option _ none | .operands _ => false
  | _ => !r.trailing

def read (r : Reader) : List String → Except UsageError Reader
  | [] => .ok r
  | s :: rest =>
    match if r.atCommand then subcommand? s rest else none with
    | some command =>
      command.map fun c => { r with arguments := { r.arguments with command := some c } }
    | none =>
      if r.trailing then do
        (← r.operand s).read rest
      else
        match Word.ofString s with
        | .endOfOptions => { r with trailing := true }.read rest
        | .long name value => do (← r.long name value).read rest
        | .short letters => do (← r.short letters).read rest
        | .plain s => do (← r.plain s).read rest

/-- An option that is missing is not missed when it could not be given beside the others. -/
def lacks (r : Reader) (o : Opt) : Bool :=
  !r.given.contains o && !r.given.any (o.conflicts ·)

/-- Checks the options that were given against each other. -/
def check (r : Reader) : Except UsageError Arguments :=
  if r.given.any fun o => r.given.any (o.conflicts ·) then .error .argumentConflict
  else if r.given.any fun o => o.requirement?.any (r.lacks ·) then .error .missingRequiredArgument
  else .ok r.arguments

end Reader

/-- The arguments that the words of a command line stand for, the program's name not among them. -/
def parse (words : List String) : Except UsageError Arguments := do
  let r ← ({ : Reader }).read words
  (← r.settle).check

end MakeLint.Arguments
