import MakeLint.Arguments
import MakeLint.Console
import MakeLint.Environment
/-!
# Colour

How lines on the console are written: whether their text carries styles, and whether escape sequences
are used at all. The two differ where the environment asks for colour and the user does not, since a
terminal that is made to look coloured stays so.
-/

namespace MakeLint

structure Console where
  paint : Paint
  escapes : Bool

namespace Console

def trimmed (value : String) : String :=
  String.ofList (Text.trim value.toList)

def lower (value : String) : String :=
  value.map Char.toLower

/-- A variable that is set to something. -/
def isSet (e : Environment) (name : String) : Bool :=
  (e.value? name).any (· ≠ "")

/-- Whether the environment makes the output a terminal; a zero does not. -/
def isForced (e : Environment) : Bool :=
  match e.value? "FORCE_COLOR" with
  | some value => trimmed value ≠ "" && trimmed value ≠ "0"
  | none => false

def isDumb (e : Environment) : Bool :=
  ["dumb", "unknown"].contains (lower ((e.value? "TERM").getD ""))

/-- Whether a terminal has colours; `COLORTERM` is asked before `TERM`. -/
def hasColors (e : Environment) : Bool :=
  ["truecolor", "24bit"].contains (lower (trimmed ((e.value? "COLORTERM").getD ""))) || !isDumb e

/-- Whether a console uses escape sequences when it is left to find out by itself. -/
def detects (e : Environment) : Bool :=
  isForced e && !isSet e "NO_COLOR" && hasColors e

def full : Console :=
  ⟨⟨true⟩, true⟩

def ofMode (mode : ColorMode) (e : Environment) : Console :=
  let plain : Console := ⟨⟨false⟩, detects e⟩
  match mode with
  | .always => full
  | .never => plain
  | .auto =>
    if (e.value? "NO_COLOR").isNone && (e.value? "FORCE_COLOR").isSome then full else plain

end Console

end MakeLint
