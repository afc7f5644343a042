import MakeLint.Glob.Lookup
import MakeLint.Glob.Range
import MakeLint.Total
/-!
# Expressions as text

The regular expression of a glob as it is written, with how deep it nests: a class, a repetition, a
group, a choice and a row of several elements are one level each. No expression may nest deeper than
two hundred and fifty levels, so that a glob that needs a deeper one to be matched is refused.
-/

namespace MakeLint.Glob

structure Source where
  text : String
  /-- The number of elements in a row. -/
  width : Nat
  /-- How deep the deepest element nests. -/
  depth : Nat

namespace Source

def empty : Source :=
  ⟨"", 0, 0⟩

def append (a b : Source) : Source :=
  ⟨a.text ++ b.text, a.width + b.width, max a.depth b.depth⟩

/-- The levels of a row, where several elements make one level more. -/
def levels (s : Source) : Nat :=
  if s.width > 1 then s.depth + 1 else s.depth

/-- A group of alternatives. -/
def choice (parts : List Source) : Source :=
  if parts.isEmpty then
    empty
  else
    { text := "(?:" ++ String.intercalate "|" (parts.map text) ++ ")"
      width := 1
      depth := (if parts.length > 1 then 2 else 1) + (parts.map levels).foldl max 0 }

/-- The characters that have a meaning in an expression. -/
def special : List Char :=
  "\\.+*?()|[]\x7b\x7d^$#&-~".toList

def hexDigit (n : Nat) : Char :=
  if n < 10 then Char.ofNat ('0'.toNat + n) else Char.ofNat ('a'.toNat + n - 10)

def byteText (b : UInt8) : String :=
  if b < 0x80 then
    let c := Char.ofNat b.toNat
    String.ofList (if special.contains c then ['\\', c] else [c])
  else
    String.ofList ['\\', 'x', hexDigit (b.toNat / 16), hexDigit (b.toNat % 16)]

def charText (c : Char) : String :=
  String.join ((charBytes c).map byteText)

def rangeText (range : Char × Char) : String :=
  if range.1 = range.2 then charText range.1
  else charText range.1 ++ "-" ++ charText range.2

/-- The bytes and ranges of bytes that a range is written with. -/
def rangeWidth (range : Char × Char) : Nat :=
  let low := (charBytes range.1).length
  if range.1 = range.2 then low else low + (charBytes range.2).length - 1

def ofClass (negated : Bool) (ranges : List (Char × Char)) : Source :=
  { text := (if negated then "[^" else "[") ++ String.join (ranges.map rangeText) ++ "]"
    width := 1
    depth := if total rangeWidth ranges > 1 then 2 else 1 }

mutual

/-- The source of a token; `separate` when a wildcard does not stand for a slash. -/
def ofToken (separate : Bool) : Token → Source
  | .char c => ⟨charText c, (charBytes c).length, 0⟩
  | .any => if separate then ⟨"[^/]", 1, 1⟩ else ⟨".", 1, 0⟩
  | .star => if separate then ⟨"[^/]*", 1, 2⟩ else ⟨".*", 1, 1⟩
  | .cls negated ranges => ofClass negated ranges
  | .leadingDirs => choice [⟨"/?", 1, 1⟩, ⟨".*/", 2, 1⟩]
  | .trailingDirs => ⟨"/.*", 2, 1⟩
  | .innerDirs => choice [⟨"/", 1, 0⟩, ⟨"/.*/", 3, 1⟩]
  | .group branches => choice (ofBranches separate branches)

def ofRow (separate : Bool) : List Token → Source
  | [] => empty
  | t :: rest => (ofToken separate t).append (ofRow separate rest)

/-- The sources of the branches that hold something. -/
def ofBranches (separate : Bool) : List (List Token) → List Source
  | [] => []
  | row :: rest =>
    let s := ofRow separate row
    if s.width = 0 then ofBranches separate rest else s :: ofBranches separate rest

end

/-- The source of a whole pattern; two stars alone match everything. -/
def ofPattern (separate : Bool) (tokens : List Token) : Source :=
  let row : Source := match tokens with
    | [.leadingDirs] => ⟨".*", 1, 1⟩
    | tokens => ofRow separate tokens
  { text := "(?-u)^" ++ row.text ++ "$", width := row.width + 3, depth := row.depth }

end Source

def maxLevels : Nat := 250

/-- A glob of a set is refused. -/
inductive SetError where
  /-- The expression that an extension has to be followed by. -/
  | tooDeepAfterExtension (source : String)
  /-- The place among the expressions of the set. -/
  | tooDeep (index : Nat)
  deriving DecidableEq

def SetError.message : SetError → String
  | tooDeepAfterExtension source => "error parsing glob '" ++ source ++ "': error parsing pattern 0"
  | tooDeep index => "error parsing pattern " ++ toString index

end MakeLint.Glob
