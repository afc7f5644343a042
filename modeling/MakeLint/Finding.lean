import MakeLint.Sink
/-!
# Findings

A defect is a cause for complaint in the text of a makefile, and a finding is a defect with the place
where it was found. Class, severity, wording and the notes that follow are functions of the defect
alone.
-/

namespace MakeLint

inductive Defect where
  | nulByte
  | missingNewline
  | overlongLine
  | invalidEncoding
  /-- A line of more columns than the limit; the tip is left out where `overlongLine` gives it. -/
  | wideLine (columns limit : Nat) (tipped : Bool)
  | continuedBlank
  | continuationToBlank
  | continuationAtEnd (included : Bool)
  /-- A line joined to a later one with no white space on either side; between adjacent lines, or
  over lines that hold only a backslash. -/
  | spacelessContinuation (adjacent : Bool)
  | unindentedContinuation
  | leadingBadSpace
  | indentedComment
  | nonemptyBlank
  | continuedComment
  deriving DecidableEq

namespace Defect

/-- The longest line, its newline included, that text files are sure to support. -/
def lineMax : Nat := 2048

def cls : Defect → WarningClass
  | nulByte | missingNewline | overlongLine => .text
  | invalidEncoding => .encoding
  | wideLine .. => .longLine
  | continuedBlank => .continuationOfBlank
  | continuationToBlank => .continuationToBlank
  | continuationAtEnd _ => .eofLineContinuation
  | spacelessContinuation _ => .spacelessContinuation
  | unindentedContinuation => .unindentedContinuation
  | leadingBadSpace => .leadingBadSpace
  | indentedComment => .illegalIndent
  | nonemptyBlank => .nonemptyBlank
  | continuedComment => .commentContinuation

def severity : Defect → Severity
  | nulByte | missingNewline | overlongLine | leadingBadSpace | indentedComment => .undefined
  | invalidEncoding | continuationAtEnd _ => .unspecified
  | wideLine .. | nonemptyBlank => .style
  | continuedBlank | continuationToBlank | spacelessContinuation _ | unindentedContinuation
  | continuedComment => .confusing

def message : Defect → String
  | nulByte =>
    "file contains a NUL byte, this is disallowed, because input files are text files, and " ++
      "causes undefined behaviour"
  | missingNewline =>
    "is non-empty but does not end with a <newline>, which is required because input files are " ++
      "text files, and omission of it causes undefined behaviour"
  | overlongLine =>
    "line is, including the <newline> character, longer than 2048 bytes which causes undefined " ++
      "behaviour as input files are text files and POSIX only guarantees support for lines up " ++
      "to 2048 bytes long including the <newline> character in text files"
  | invalidEncoding => "line contains invalid UTF-8"
  | wideLine columns limit _ =>
    "line is " ++ toString columns ++ " columns long, which is longer than " ++ toString limit ++
      " columns"
  | continuedBlank =>
    "initial line continuation on otherwise blank line, can cause confusion"
  | continuationToBlank => "terminal line continuation to blank line, can cause confusion"
  | continuationAtEnd included =>
    "line continuation at end of file, causes unspecified behaviour" ++
      if included then ", it is especially problematic in an included line" else ""
  | spacelessContinuation adjacent =>
    "<backslash> is preceded by a non-white space character at the same time as the next line" ++
      (if adjacent then "" else ", that consist of not only a <backslash>,") ++
      " begins with a non-white space character, this can cause confusion as the make utility " ++
      "will add a white space"
  | unindentedContinuation => "continuation of line is not indented, can cause confusion"
  | leadingBadSpace =>
    "line contains leading white space other than <space> and <tab>, which causes undefined " ++
      "behaviour"
  | indentedComment => "comment has leading white space, which is not legal"
  | nonemptyBlank => "line is blank but not empty"
  | continuedComment =>
    "using continuation of line to continue a comment on the next line can cause confusion"

/-- What is said after the warning: how the linter goes on, and how to avoid the defect. -/
def notes : Defect → List Notice
  | nulByte => [.info .text "this implementation will replace it with a <space>"]
  | missingNewline => [.info .text "this implementation will add the missing <newline>"]
  | overlongLine =>
    [.info .text "this implementation supports arbitrarily long lines", .longLineTip .text]
  | invalidEncoding =>
    [.info .encoding
      "this implementation will replace it with the Unicode replacement character (U+FFFD)"]
  | wideLine _ _ tipped => if tipped then [.longLineTip .longLine] else []
  | continuationAtEnd _ =>
    [.info .eofLineContinuation "this implementation will remove the line continuation"]
  | indentedComment =>
    [.info .illegalIndent "this implementation will recognise it as a comment line"]
  | _ => []

end Defect

structure Finding where
  defect : Defect
  location : Location
  deriving DecidableEq

namespace Finding

def warning (f : Finding) : Notice :=
  .warn f.defect.cls f.defect.severity (some f.location) f.defect.message

def notices (f : Finding) : List Notice :=
  f.warning :: f.defect.notes

end Finding

def Sink.addFindings (s : Sink) (findings : List Finding) : Sink :=
  s.addAll (findings.flatMap Finding.notices)

end MakeLint
