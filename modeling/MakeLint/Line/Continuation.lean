import MakeLint.Line
/-!
# Continuations

A backslash at the end of a line joins it to the next. `joinAll` takes the backslashes off and notes
how each line is joined; the last line of a source has nothing to be joined to, so its backslash is
only taken off. The findings look at a line, at the one before it, and at the last line of the run
that had content, since that is where the joined text leaves off.
-/

namespace MakeLint.Line

/-- Takes off a trailing backslash and notes the white space that stands for the line break. -/
def join (l : Line) : Line :=
  if l.data.getLast? = some Byte.backslash then
    { l with
      data := l.data.dropLast
      joiner := if l.data.dropLast.head? = some Byte.tab then .tab else .space }
  else
    { l with joiner := .none }

/-- The last line of a source continues nowhere. -/
def settle (l : Line) : Line :=
  if l.eof then { l with joiner := .none } else l

def joinAll (lines : List Line) : List Line :=
  lines.map fun l => l.join.settle

/-- Where the text of a run of joined lines leaves off. -/
structure Anchor where
  line : Line
  /-- The line stands directly before the one that is looked at. -/
  adjacent : Bool

def endsInText (l : Line) : Bool :=
  l.data.getLast?.any (!Byte.isSpace ·)

def startsWithText (l : Line) : Bool :=
  l.data.head?.any (!Byte.isSpace ·)

/-- What is confusing about a joined line after `before`, which is there if the previous line is
continued. -/
def continuationFindingsAt (before : Option Anchor) (l : Line) : List Finding :=
  (if l.isContinued && before.isNone && l.isBlank then [l.finding .continuedBlank] else []) ++
  (if !l.isContinued && before.isSome && l.isBlank then [l.finding .continuationToBlank] else []) ++
  (if l.isContinued && l.eof then [l.finding (.continuationAtEnd (l.nestLevel > 0))] else []) ++
  match before with
  | none => []
  | some anchor =>
    if l.startsWithText then
      (if anchor.line.endsInText then
        [⟨.spacelessContinuation anchor.adjacent,
          { anchor.line.location with endLine := some l.number }⟩]
      else []) ++ [l.finding .unindentedContinuation]
    else
      []

/-- Where the run leaves off after a joined line, if the line is continued. -/
def anchorAfter (before : Option Anchor) (l : Line) : Option Anchor :=
  if l.settle.isContinued then
    match before with
    | some anchor => if l.data.isEmpty then some ⟨anchor.line, false⟩ else some ⟨l, true⟩
    | none => some ⟨l, true⟩
  else
    none

def continuationFindingsFrom (before : Option Anchor) : List Line → List Finding
  | [] => []
  | l :: rest =>
    continuationFindingsAt before l.join ++ continuationFindingsFrom (anchorAfter before l.join) rest

def continuationFindings (lines : List Line) : List Finding :=
  continuationFindingsFrom none lines

end MakeLint.Line
