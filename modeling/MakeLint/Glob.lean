import MakeLint.Glob.Expr
import MakeLint.Glob.Source
import MakeLint.Text.Blank
/-!
# Globs

A glob matches the bytes of a name, so a question mark stands for one byte, and a class holds the
bytes of its characters. In a list of patterns, where one comma separates two of them, white space
around a pattern does not count and empty patterns are skipped.
-/

namespace MakeLint

namespace Glob

def union (a b : Option Expr) : Option Expr :=
  Option.merge .either a b

def chain (a b : Option Expr) : Option Expr :=
  Option.merge .seq a b

mutual

/-- The expression of a token, or nothing for a group that holds nothing; `wild` says which bytes a
wildcard may stand for. -/
def tokenExpr (wild : UInt8 → Bool) : Token → Option Expr
  | .char c => some (.exactly (charBytes c))
  | .any => some (.one wild)
  | .star => some (.many wild)
  | .cls negated ranges => some (.one fun b => (ranges.any (inRange · b)) != negated)
  | .leadingDirs => some (.either (.either .empty .slash) (.seq .anything .slash))
  | .trailingDirs => some (.seq .slash .anything)
  | .innerDirs => some (.either .slash (.seq .slash (.seq .anything .slash)))
  | .group branches => branchesExpr wild branches

def rowExpr (wild : UInt8 → Bool) : List Token → Option Expr
  | [] => none
  | t :: rest => chain (tokenExpr wild t) (rowExpr wild rest)

/-- The branches that hold something. -/
def branchesExpr (wild : UInt8 → Bool) : List (List Token) → Option Expr
  | [] => none
  | row :: rest => union (rowExpr wild row) (branchesExpr wild rest)

end

/-- The expression of a whole pattern; two stars alone match everything. -/
def patternExpr (wild : UInt8 → Bool) (tokens : List Token) : Expr :=
  match tokens with
  | [.leadingDirs] => .anything
  | tokens => (rowExpr wild tokens).getD .empty

end Glob

structure Glob where
  tokens : List Glob.Token
  /-- Wildcards do not stand for a slash. -/
  separate : Bool

namespace Glob

/-- A pattern for names, in which wildcards stand for any byte. -/
def ofPattern (pattern : String) : Except Error Glob :=
  (tokens? false pattern).map fun tokens => ⟨tokens, false⟩

/-- A pattern for paths, in which wildcards do not stand for a slash and a bracket that is never
closed is taken as it stands. -/
def ofPathPattern (pattern : String) : Except Error Glob :=
  (tokens? true pattern).map fun tokens => ⟨tokens, true⟩

def expr (g : Glob) : Expr :=
  patternExpr (fun b => !(g.separate && b == Byte.slash)) g.tokens

/-- A path whose last component is two dots has no file name. -/
def hasFileName (path : String) : Bool :=
  (Text.splitAll '/' path.toList).getLast? ≠ some ['.', '.']

def isMatch (g : Glob) (path : String) : Bool :=
  (hasFileName path || !(lookup g.separate g.tokens).needsName) &&
    g.expr.accepts (Bytes.ofString path)

/-! ### Sets of globs -/

/-- The sources of the globs that are looked up in this way. -/
def sources (globs : List Glob) (way : Lookup) : List Source :=
  (globs.filter fun g => lookup g.separate g.tokens = way).map fun g =>
    Source.ofPattern g.separate g.tokens

/-- What makes a set of globs unusable: expressions after an extension are looked at first. -/
def setError? (globs : List Glob) : Option SetError :=
  let isTooDeep (s : Source) : Bool := maxLevels < s.levels
  match (sources globs .extension).find? isTooDeep with
  | some s => some (.tooDeepAfterExtension s.text)
  | none => ((sources globs .expression).findIdx? isTooDeep).map .tooDeep

/-! ### Lists of patterns -/

inductive ListError where
  | noPattern
  | badPattern (pattern : String) (error : Error)
  | badSet (error : SetError)
  deriving DecidableEq

def ListError.message : ListError → String
  | noPattern => "--glob must include at least one pattern"
  | badPattern pattern error =>
    "Invalid glob pattern '" ++ pattern ++ "': error parsing glob '" ++ pattern ++ "': " ++
      error.message
  | badSet error => "Invalid glob set: " ++ error.message

/-- The patterns in a list separated by commas. -/
def patterns (list : String) : List String :=
  (((Text.splitAll ',' list.toList).map Text.trim).filter (!·.isEmpty)).map String.ofList

def parsePattern (pattern : String) : Except ListError Glob :=
  (ofPattern pattern).mapError (.badPattern pattern)

def parseList (list : String) : Except ListError (List Glob) :=
  match patterns list with
  | [] => .error .noPattern
  | patterns =>
    match patterns.mapM parsePattern with
    | .error e => .error e
    | .ok globs =>
      match setError? globs with
      | some e => .error (.badSet e)
      | none => .ok globs

end Glob

end MakeLint
