/-!
# Bytes

A makefile is a list of bytes until its encoding has been checked. White space is what the C locale
calls so; a blank is a space or a tab, the only white space that may start a line.
-/

namespace MakeLint

abbrev Bytes := List UInt8

namespace Byte

def nul : UInt8 := 0x00
def tab : UInt8 := 0x09
def newline : UInt8 := 0x0a
def carriageReturn : UInt8 := 0x0d
def space : UInt8 := 0x20
def hash : UInt8 := 0x23
def slash : UInt8 := 0x2f
def backslash : UInt8 := 0x5c

def isSpace (b : UInt8) : Bool :=
  b == space || (0x09 ≤ b && b ≤ 0x0d)

def isBlank (b : UInt8) : Bool :=
  b == space || b == tab

end Byte

namespace Bytes

def ofString (s : String) : Bytes :=
  s.toUTF8.toList

def isWhite (bytes : Bytes) : Bool :=
  bytes.all Byte.isSpace

/-- The bytes without one backslash at their end, if they have one. -/
def dropBackslash (bytes : Bytes) : Bytes :=
  if bytes.getLast? = some Byte.backslash then bytes.dropLast else bytes

/-- The segments that end at a newline, and what stands after the last newline unless that is
nothing. -/
def segments : Bytes → List Bytes
  | [] => []
  | b :: rest =>
    if b = Byte.newline then
      [] :: segments rest
    else
      match segments rest with
      | [] => [[b]]
      | s :: more => (b :: s) :: more

end Bytes

end MakeLint
