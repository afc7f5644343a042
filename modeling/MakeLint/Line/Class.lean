import MakeLint.Line
/-!
# Line classes

The grammatical class of the line that begins a run of continued lines. An empty line is empty
whatever follows. A line of white space takes its class from the next line of its run, and is blank
when the run ends in white space.
-/

namespace MakeLint

inductive LineClass where
  | empty
  | blank
  | comment
  | commandLine
  | other
  deriving DecidableEq

structure ClassCounts where
  empty : Nat := 0
  blank : Nat := 0
  comment : Nat := 0
  commandLine : Nat := 0
  other : Nat := 0
  deriving DecidableEq

def ClassCounts.record (n : ClassCounts) : LineClass → ClassCounts
  | .empty => { n with empty := n.empty + 1 }
  | .blank => { n with blank := n.blank + 1 }
  | .comment => { n with comment := n.comment + 1 }
  | .commandLine => { n with commandLine := n.commandLine + 1 }
  | .other => { n with other := n.other + 1 }

namespace Line

def leadingSpace (l : Line) : Bytes :=
  l.data.takeWhile Byte.isSpace

/-- The first byte of a line that is not white space. -/
def firstText? (l : Line) : Option UInt8 :=
  (l.data.dropWhile Byte.isSpace).head?

def hasBadSpace (l : Line) : Bool :=
  l.leadingSpace.any (!Byte.isBlank ·)

/-- The class that the first line with text gives its run. -/
def textClass (l : Line) (first : UInt8) : LineClass :=
  if first = Byte.hash then .comment
  else if l.data.head? = some Byte.tab then .commandLine
  else .other

def indentFindings (l : Line) (first : UInt8) : List Finding :=
  if first = Byte.hash && !l.leadingSpace.isEmpty then [l.finding .indentedComment] else []

/-- The class of the lines of a run; `warned` once bad leading white space has been reported. -/
def classifyRun (warned : Bool) : List Line → LineClass × List Finding
  | [] => (.blank, [])
  | l :: rest =>
    let bad := if !warned && l.hasBadSpace then [l.finding .leadingBadSpace] else []
    match l.firstText? with
    | some first => (l.textClass first, bad ++ l.indentFindings first)
    | none =>
      if l.isContinued then
        let (cls, later) := classifyRun (warned || l.hasBadSpace) rest
        (cls, bad ++ later)
      else
        (.blank, bad)

/-- The class of the first of these lines, and what is wrong with it. -/
def classify (lines : List Line) : LineClass × List Finding :=
  match lines with
  | [] => (.blank, [])
  | l :: _ => if l.data.isEmpty then (.empty, []) else classifyRun false lines

end Line

end MakeLint
