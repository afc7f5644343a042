import MakeLint.Text.Bytes
/-!
# Ranges of characters

A character class is matched against one byte, so a range of characters holds bytes: all bytes of its
ends, and those between the last byte of the lower and the first byte of the upper end.
-/

namespace MakeLint.Glob

def charBytes (c : Char) : Bytes :=
  Bytes.ofString (String.singleton c)

def inRange (range : Char × Char) (b : UInt8) : Bool :=
  let low := charBytes range.1
  let high := charBytes range.2
  low.contains b ||
    (range.1 ≠ range.2 &&
      (high.contains b || (low.getLast?.any (· ≤ b) && high.head?.any (b ≤ ·))))

end MakeLint.Glob
