import MakeLint.Glob.Pattern
/-!
# Looking up globs

Many patterns are so simple that no expression is needed to match them: the whole path, its beginning
or its end can be compared, or its file name, or the extension of that. This shows in one place only:
a path that ends in `..` has no file name, so that a pattern that is looked up by file name or
extension does not match it.
-/

namespace MakeLint.Glob

inductive Lookup where
  /-- By the text of the path. -/
  | path
  | fileName
  /-- By the extension first and then by an expression. -/
  | extension
  | expression
  deriving DecidableEq

def Lookup.needsName : Lookup → Bool
  | path | expression => false
  | fileName | extension => true

namespace Token

def isChar : Token → Bool
  | char _ => true
  | _ => false

def isCharExcept (excluded : List Char) : Token → Bool
  | char c => !excluded.contains c
  | _ => false

def isStar : Token → Bool
  | star => true
  | _ => false

end Token

/-- Whether the pattern begins with any number of directories, and what follows them. -/
def splitLeading : List Token → Bool × List Token
  | .leadingDirs :: rest => (true, rest)
  | tokens => (false, tokens)

def isFileName (tokens : List Token) : Bool :=
  let (leading, rest) := splitLeading tokens
  leading && !rest.isEmpty && rest.all (Token.isCharExcept ['/'])

def isLiteral (tokens : List Token) : Bool :=
  !tokens.isEmpty && tokens.all Token.isChar

/-- A star and an extension; `separate` when a star does not stand for a slash. -/
def isExtension (separate : Bool) (tokens : List Token) : Bool :=
  let (leading, rest) := splitLeading tokens
  match rest with
  | .star :: .char '.' :: more =>
    (leading || !separate) && more.all (Token.isCharExcept ['.', '/'])
  | _ => false

/-- A text that the path begins with. -/
def isBeginning (separate : Bool) (tokens : List Token) : Bool :=
  match tokens.reverse with
  | .star :: before => !separate && isLiteral before
  | .trailingDirs :: before => before.all Token.isChar
  | _ => false

/-- A text that the path ends with, or its last components. -/
def isEnding (separate : Bool) (tokens : List Token) : Bool :=
  let (leading, rest) := splitLeading tokens
  match rest with
  | .star :: more => !separate && more.all Token.isChar && !isSlash more && !more.isEmpty
  | more => more.all Token.isChar && !more.isEmpty && (leading || !isSlash more)
where
  isSlash : List Token → Bool
    | [.char '/'] => true
    | _ => false

/-- The pattern ends in a dot and more text of a file name. -/
def endsInExtension (tokens : List Token) : Bool :=
  match tokens.reverse.dropWhile (Token.isCharExcept ['.', '/']) with
  | .char '.' :: _ => true
  | _ => false

def lookup (separate : Bool) (tokens : List Token) : Lookup :=
  if isFileName tokens then .fileName
  else if isLiteral tokens then .path
  else if isExtension separate tokens then .fileName
  else if isBeginning separate tokens || isEnding separate tokens then .path
  else if endsInExtension tokens then .extension
  else .expression

end MakeLint.Glob
