/-!
# Warning classes

Every diagnostic belongs to a class, and every class has an action that says what becomes of its
diagnostics. The order of `all` is the order in which classes are listed to the user.
-/

namespace MakeLint

inductive Action where
  | ignore
  | inform
  | style
  | warn
  deriving DecidableEq

namespace Action

def all : List Action :=
  [ignore, inform, style, warn]

def name : Action → String
  | ignore => "ignore"
  | inform => "inform"
  | style => "style"
  | warn => "warn"

end Action

inductive WarningClass where
  | makefile
  | extraMakefile
  | cmdline
  | text
  | encoding
  | longLine
  | nonemptyBlank
  | leadingBadSpace
  | illegalIndent
  | continuationOfBlank
  | continuationToBlank
  | eofLineContinuation
  | unindentedContinuation
  | spacelessContinuation
  | commentContinuation
  deriving DecidableEq

namespace WarningClass

def all : List WarningClass :=
  [makefile, extraMakefile, cmdline, text, encoding, longLine, nonemptyBlank, leadingBadSpace,
    illegalIndent, continuationOfBlank, continuationToBlank, eofLineContinuation,
    unindentedContinuation, spacelessContinuation, commentContinuation]

def name : WarningClass → String
  | makefile => "makefile"
  | extraMakefile => "extra-makefile"
  | cmdline => "cmdline"
  | text => "text"
  | encoding => "encoding"
  | longLine => "long-line"
  | nonemptyBlank => "nonempty-blank"
  | leadingBadSpace => "leading-bad-space"
  | illegalIndent => "illegal-indent"
  | continuationOfBlank => "continuation-of-blank"
  | continuationToBlank => "continuation-to-blank"
  | eofLineContinuation => "eof-line-continuation"
  | unindentedContinuation => "unindented-continuation"
  | spacelessContinuation => "spaceless-continuation"
  | commentContinuation => "comment-continuation"

def ofName? (name : String) : Option WarningClass :=
  all.find? (·.name == name)

def defaultAction : WarningClass → Action
  | makefile => .inform
  | longLine | nonemptyBlank => .style
  | _ => .warn

end WarningClass

end MakeLint
