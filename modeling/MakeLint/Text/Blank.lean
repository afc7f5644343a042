/-!
# White space in text

The characters with the Unicode property White_Space, and text without those at its ends.
-/

namespace MakeLint.Text

def isWhite (c : Char) : Bool :=
  let n := c.toNat
  (0x09 ≤ n && n ≤ 0x0d) || n = 0x20 || n = 0x85 || n = 0xa0 || n = 0x1680 ||
    (0x2000 ≤ n && n ≤ 0x200a) || n = 0x2028 || n = 0x2029 || n = 0x202f || n = 0x205f || n = 0x3000

def trimStart (cs : List Char) : List Char :=
  cs.dropWhile isWhite

def trimEnd (cs : List Char) : List Char :=
  (cs.reverse.dropWhile isWhite).reverse

def trim (cs : List Char) : List Char :=
  trimEnd (trimStart cs)

/-- What stands before and after the first occurrence of a character. -/
def splitFirst? (sep : Char) : List Char → Option (List Char × List Char)
  | [] => none
  | c :: rest =>
    if c = sep then some ([], rest)
    else (splitFirst? sep rest).map fun parts => (c :: parts.1, parts.2)

/-- The parts between the occurrences of a character; always at least one. -/
def splitAll (sep : Char) : List Char → List (List Char)
  | [] => [[]]
  | c :: rest =>
    if c = sep then [] :: splitAll sep rest
    else
      match splitAll sep rest with
      | [] => [[c]]
      | part :: more => (c :: part) :: more

end MakeLint.Text
