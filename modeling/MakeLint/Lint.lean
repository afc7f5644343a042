import MakeLint.Line.Class
import MakeLint.Line.Continuation
import MakeLint.Line.Encoding
import MakeLint.Line.Framing
import MakeLint.Line.Width
import MakeLint.Total
/-!
# Linting a source

All checks over the lines of one source. Encoding and width are checked line by line, then
continuations are resolved, and then every logical line is classified: a line together with the lines
it is continued on counts once, under the class of its first line.
-/

namespace MakeLint

/-- What was read: the size of a source and the classes of its logical lines. -/
structure Report where
  file : String
  lines : Nat
  bytes : Nat
  classes : ClassCounts
  deriving DecidableEq

namespace Lint

/-- Checks the encoding and the width of each line. -/
def lineFindings (style : Style) (lines : List Line) : List Finding :=
  lines.flatMap fun l => l.encodingFindings ++ l.repair.widthFindings style

/-- Counts and checks the logical lines of joined lines; `inside` when the first of them belongs to
a logical line that began earlier. -/
def survey (style : Style) : Bool → List Line → ClassCounts × List Finding
  | _, [] => ({}, [])
  | inside, l :: rest =>
    let (counts, later) := survey style l.isContinued rest
    let hidden :=
      if l.isContinued && l.data.contains Byte.hash then [l.finding .continuedComment] else []
    if inside then
      (counts, hidden ++ later)
    else
      let (cls, found) := Line.classify (l :: rest)
      let blank :=
        if cls = .blank && style.onlyEmptyBlankLines then [l.finding .nonemptyBlank] else []
      (counts.record cls, found ++ blank ++ hidden ++ later)

/-- The lines as the checks leave them. -/
def finalLines (lines : List Line) : List Line :=
  Line.joinAll (lines.map Line.repair)

def lines (style : Style) (lines : List Line) : ClassCounts × List Finding :=
  let repaired := lines.map Line.repair
  let (counts, found) := survey style false (Line.joinAll repaired)
  (counts, lineFindings style lines ++ Line.continuationFindings repaired ++ found)

/-- Lints the bytes of one source. -/
def source (name : String) (style : Style) (bytes : Bytes) : Report × List Finding :=
  let loaded := Line.ofBytes name 0 bytes
  let (classes, found) := lines style loaded
  (⟨name, loaded.length, total (fun l => l.data.length + 1) loaded, classes⟩,
    Line.framingFindings name bytes loaded ++ found)

end Lint

end MakeLint
