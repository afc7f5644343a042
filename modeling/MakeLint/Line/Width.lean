import MakeLint.Line
import MakeLint.Style
import MakeLint.Text.Columns
/-!
# Width

A line is too wide when it takes more columns than the style allows, a backslash at its end not
counted. A line of no more bytes than columns allowed is never too wide, so it need not be measured.
-/

namespace MakeLint.Line

/-- The part of a line that is measured. -/
def content (l : Line) : Bytes :=
  l.data.dropBackslash

def widthFindings (style : Style) (l : Line) : List Finding :=
  if l.content.length ≤ style.maxLineLength then
    []
  else
    let columns := Columns.ofBytes l.content
    if columns > style.maxLineLength then
      [l.finding (.wideLine columns style.maxLineLength (l.data.length + 1 ≤ Defect.lineMax))]
    else
      []

end MakeLint.Line
