import MakeLint.Finding
import MakeLint.Text.Bytes
/-!
# Lines

A physical line of a makefile, without its newline. A line that ends in a backslash is joined to the
next one by a space or a tab; until the joiner has been set the backslash is part of the data.
-/

namespace MakeLint

inductive Joiner where
  | none
  | space
  | tab
  deriving DecidableEq

def Joiner.name : Joiner → String
  | none => "none"
  | space => "space"
  | tab => "tab"

structure Line where
  data : Bytes
  path : String
  number : Nat
  /-- The last line of its source. -/
  eof : Bool
  /-- How many inclusions lead to the source; 0 for the makefile itself. -/
  nestLevel : Nat
  joiner : Joiner
  deriving DecidableEq

namespace Line

def isContinued (l : Line) : Bool :=
  l.joiner ≠ .none

def location (l : Line) : Location :=
  { path := l.path, line := l.number }

def isBlank (l : Line) : Bool :=
  l.data.isWhite

def finding (l : Line) (d : Defect) : Finding :=
  ⟨d, l.location⟩

end Line

end MakeLint
