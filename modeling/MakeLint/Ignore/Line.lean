import MakeLint.Text.Utf8
/-!
# Lines of ignore files

A line ends at a newline, and a carriage return before the newline does not belong to it. What stands
after the last newline is a line of its own, to which a carriage return at its end belongs.
-/

namespace MakeLint.Ignore

def dropReturn (line : Bytes) : Bytes :=
  if line.getLast? = some Byte.carriageReturn then line.dropLast else line

def lines (content : Bytes) : List Bytes :=
  let segments := content.segments
  if content.getLast? = some Byte.newline then
    segments.map dropReturn
  else
    segments.dropLast.map dropReturn ++ segments.getLast?.toList

/-- The lines up to the first that is no text, and whether there is such a line. -/
def textLines : List Bytes → List (List Char) × Bool
  | [] => ([], false)
  | line :: rest =>
    match Utf8.decode? line with
    | none => ([], true)
    | some text =>
      let (later, broken) := textLines rest
      (text.toList :: later, broken)

end MakeLint.Ignore
