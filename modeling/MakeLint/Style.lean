/-!
# Style

Preferences that are fixed before any line is checked.
-/

namespace MakeLint

/-- How macro expansions are to be bracketed. -/
inductive BracketStyle where
  | inconsistent
  | round
  | curly
  deriving DecidableEq

/-- The columns a line may take unless the user says otherwise. -/
def defaultLineLength : Nat := 120

structure Style where
  maxLineLength : Nat := defaultLineLength
  onlyEmptyBlankLines : Bool := true
  bracketStyle : BracketStyle := .round
  deriving DecidableEq

end MakeLint
