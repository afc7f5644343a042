import MakeLint.FileTree
import MakeLint.Glob
import MakeLint.Ignore.Line
/-!
# Ignore rules

The lines of an ignore file. A line that starts with an exclamation mark keeps what it matches. A
pattern with a slash in front or in the middle is matched against the whole path below the directory
of the file, any other pattern against the last part of it, and a slash at the end restricts the
pattern to directories. Of the lines that match, the last one decides. A line that cannot be used is
a problem and no rule, but a set of patterns that cannot be used leaves the file without rules.
-/

namespace MakeLint.Ignore

structure Rule where
  glob : Glob
  keeps : Bool
  directoriesOnly : Bool

inductive Problem where
  | badLine (file : Path) (number : Nat) (line : String) (cause : Glob.Error)
  | unreadableLine (file : Path) (number : Nat)
  | unreadable (file : Path) (cause : IoError)
  | badSet (cause : Glob.SetError)
  deriving DecidableEq

namespace Problem

def message : Problem → String
  | badLine file number line cause =>
    file.text ++ ": line " ++ toString number ++ ": error parsing glob '" ++ line ++ "': " ++
      cause.message
  | unreadableLine file number =>
    file.text ++ ": line " ++ toString number ++ ": " ++ IoError.notUtf8.message
  | unreadable file cause => file.text ++ ": " ++ cause.message
  | badSet cause => cause.message

def isUnreadableLine : Problem → Bool
  | unreadableLine _ _ => true
  | _ => false

end Problem

namespace Rule

/-- The line without white space at its end, unless a backslash keeps a space there. -/
def trimLine (line : List Char) : List Char :=
  match line.reverse with
  | ' ' :: '\\' :: _ => line
  | _ => Text.trimEnd line

/-- Whether the rule keeps, whether it is anchored, and the pattern. -/
def splitMarks (line : List Char) : Bool × Bool × List Char :=
  match line with
  | '\\' :: '!' :: rest => (false, false, '!' :: rest)
  | '\\' :: '#' :: rest => (false, false, '#' :: rest)
  | '!' :: '/' :: rest => (true, true, rest)
  | '!' :: rest => (true, false, rest)
  | '/' :: rest => (false, true, rest)
  | line => (false, false, line)

/-- Whether the pattern is for directories only, and the pattern without the slash that says so. -/
def splitSlash (pattern : List Char) : Bool × List Char :=
  match pattern.reverse with
  | '/' :: '\\' :: rest => (true, rest.reverse)
  | '/' :: rest => (true, rest.reverse)
  | _ => (false, pattern)

/-- The pattern against the whole path. -/
def fullPattern (anchored : Bool) (pattern : List Char) : List Char :=
  let placed :=
    if anchored || pattern.contains '/' || pattern = ['*', '*'] then pattern
    else '*' :: '*' :: '/' :: pattern
  match placed.reverse with
  | '*' :: '*' :: '/' :: _ => placed ++ ['/', '*']
  | _ => placed

/-- The rule that a trimmed line makes. -/
def ofTrimmed (line : List Char) : Except Glob.Error Rule :=
  let (keeps, anchored, marked) := splitMarks line
  let (directoriesOnly, pattern) := splitSlash marked
  (Glob.ofPathPattern (String.ofList (fullPattern anchored pattern))).map fun glob =>
    ⟨glob, keeps, directoriesOnly⟩

/-- The rule on a line with this number; comments and empty lines make none. -/
def ofLine? (file : Path) (number : Nat) (line : List Char) : Option (Except Problem Rule) :=
  if line.head? = some '#' then
    none
  else
    match trimLine line with
    | [] => none
    | trimmed =>
      some ((ofTrimmed trimmed).mapError (.badLine file number (String.ofList trimmed)))

def applies (r : Rule) (path : List Char) (isDirectory : Bool) : Bool :=
  r.glob.isMatch (String.ofList path) && (isDirectory || !r.directoriesOnly)

end Rule

/-- The rules of an ignore file and its problems. -/
structure RuleSet where
  rules : List Rule := []
  problems : List Problem := []

namespace RuleSet

/-- The problems, unless the only one is a line that could not be read. -/
def reported (problems : List Problem) : List Problem :=
  if problems.length = 1 then problems.filter (!·.isUnreadableLine) else problems

/-- A byte order mark may come first. -/
def withoutMark : List (List Char) → List (List Char)
  | [] => []
  | first :: rest => first.dropWhile (· = '\ufeff') :: rest

def problem? : Except Problem Rule → Option Problem
  | .error p => some p
  | .ok _ => none

def ofContent (file : Path) (content : Bytes) : RuleSet :=
  let (texts, broken) := textLines (lines content)
  let read := (withoutMark texts).zipIdx.filterMap fun (line, i) => Rule.ofLine? file (i + 1) line
  let rules := read.filterMap Except.toOption
  let problems := reported (read.filterMap problem? ++
    if broken then [.unreadableLine file (texts.length + 1)] else [])
  match Glob.setError? (rules.map Rule.glob) with
  | some cause => ⟨[], problems ++ [.badSet cause]⟩
  | none => ⟨rules, problems⟩

/-- A file that is not there has no rules, and one that cannot be read none either. -/
def ofFile (v : FileView) (file : Path) : RuleSet :=
  match v.read file with
  | .ok content => ofContent file content
  | .error _ => {}

end RuleSet

/-- What the rules say about a path below them: whether it is kept, if any rule applies. -/
def verdict? (rs : List Rule) (path : List Char) (isDirectory : Bool) : Option Bool :=
  (rs.reverse.find? fun r => r.applies path isDirectory).map Rule.keeps

end MakeLint.Ignore
