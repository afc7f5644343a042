import MakeLint.Text.Bytes
/-!
# UTF-8

`pieces` cuts bytes into characters and malformed sequences. The reader keeps the bytes of a
character that is not complete together with the ranges its next bytes must lie in. A byte outside
its range ends the unfinished character as one malformed piece and is read again as a first byte, so
a malformed piece is as long as some character could begin with it, and never holds a byte that could
start a character of its own.
-/

namespace MakeLint.Utf8

inductive Piece where
  | character (bytes : Bytes)
  | malformed (bytes : Bytes)
  deriving DecidableEq

abbrev Range := UInt8 × UInt8

def Range.contains (r : Range) (b : UInt8) : Bool :=
  r.1 ≤ b && b ≤ r.2

def trail : Range := (0x80, 0xbf)

/-- The ranges of the bytes that follow a first byte, or nothing if no character starts with it.
The narrow ranges leave out overlong forms, surrogates and what lies above U+10FFFF. -/
def following? (b : UInt8) : Option (List Range) :=
  if b < 0x80 then some []
  else if b < 0xc2 then none
  else if b < 0xe0 then some [trail]
  else if b = 0xe0 then some [(0xa0, 0xbf), trail]
  else if b = 0xed then some [(0x80, 0x9f), trail]
  else if b < 0xf0 then some [trail, trail]
  else if b = 0xf0 then some [(0x90, 0xbf), trail, trail]
  else if b < 0xf4 then some [trail, trail, trail]
  else if b = 0xf4 then some [(0x80, 0x8f), trail, trail]
  else none

/-- A character that lacks at least one byte. -/
structure Unfinished where
  read : Bytes
  next : Range
  later : List Range

/-- Reads a byte at the start of a piece. -/
def start (b : UInt8) : List Piece × Option Unfinished :=
  match following? b with
  | none => ([.malformed [b]], none)
  | some [] => ([.character [b]], none)
  | some (next :: later) => ([], some ⟨[b], next, later⟩)

def step : Option Unfinished → UInt8 → List Piece × Option Unfinished
  | none, b => start b
  | some u, b =>
    if u.next.contains b then
      match u.later with
      | [] => ([.character (u.read ++ [b])], none)
      | next :: later => ([], some ⟨u.read ++ [b], next, later⟩)
    else
      (.malformed u.read :: (start b).1, (start b).2)

/-- What is left at the end of the bytes. -/
def flush : Option Unfinished → List Piece
  | none => []
  | some u => [.malformed u.read]

def scan : Option Unfinished → Bytes → List Piece
  | state, [] => flush state
  | state, b :: rest => (step state b).1 ++ scan (step state b).2 rest

def pieces (bytes : Bytes) : List Piece :=
  scan none bytes

namespace Piece

def bytes : Piece → Bytes
  | character bs => bs
  | malformed bs => bs

def isMalformed : Piece → Bool
  | character _ => false
  | malformed _ => true

/-- U+FFFD stands for a malformed piece. -/
def replacement : Bytes :=
  [0xef, 0xbf, 0xbd]

def repaired : Piece → Bytes
  | character bs => bs
  | malformed _ => replacement

end Piece

/-- The number of the character that these bytes encode. -/
def codePoint : Bytes → Nat
  | [a] => a.toNat
  | [a, b] => a.toNat % 32 * 64 + b.toNat % 64
  | [a, b, c] => (a.toNat % 16 * 64 + b.toNat % 64) * 64 + c.toNat % 64
  | [a, b, c, d] => ((a.toNat % 8 * 64 + b.toNat % 64) * 64 + c.toNat % 64) * 64 + d.toNat % 64
  | _ => 0xfffd

def isValid (bytes : Bytes) : Bool :=
  (pieces bytes).all (!·.isMalformed)

/-- Each malformed piece replaced by U+FFFD. -/
def repair (bytes : Bytes) : Bytes :=
  (pieces bytes).flatMap Piece.repaired

def malformedCount (bytes : Bytes) : Nat :=
  (pieces bytes).countP Piece.isMalformed

/-- The text that valid bytes encode. -/
def decode? (bytes : Bytes) : Option String :=
  if isValid bytes then
    some (String.ofList ((pieces bytes).map fun p => Char.ofNat (codePoint p.bytes)))
  else
    none

end MakeLint.Utf8
