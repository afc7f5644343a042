import MakeLint.Console
/-!
# Messages

A run says what it has to say in lines, in order: plain lines on standard output, styled lines on the
console, which is standard output too, and lines on standard error.
-/

namespace MakeLint

inductive Message where
  | out (line : String)
  | console (line : Styled)
  | error (line : String)

namespace Message

/-- The text on standard output, where `elapsed` stands for the time that linting took. -/
def outText (escapes : Bool) (elapsed : String) : Message → String
  | out line => line ++ "\n"
  | console line => line.render escapes elapsed ++ "\n"
  | error _ => ""

def errorText : Message → String
  | error line => line ++ "\n"
  | _ => ""

def stdout (escapes : Bool) (elapsed : String) (messages : List Message) : String :=
  String.join (messages.map (outText escapes elapsed))

def stderr (messages : List Message) : String :=
  String.join (messages.map errorText)

end Message

end MakeLint
