/-!
# JSON

JSON values and their text over several lines, two blanks for each level. Objects keep the order of
their members; an empty array is written without a line break. Characters below the space are
escaped, and so are the quote and the backslash.
-/

namespace MakeLint.Output

inductive Json where
  | null
  | number (n : Nat)
  | string (s : String)
  | array (items : List Json)
  | object (members : List (String × Json))

namespace Json

def hexDigit (n : Nat) : Char :=
  if n < 10 then Char.ofNat ('0'.toNat + n) else Char.ofNat ('a'.toNat + n - 10)

def escapeChar (c : Char) : List Char :=
  match c with
  | '"' => ['\\', '"']
  | '\\' => ['\\', '\\']
  | '\n' => ['\\', 'n']
  | '\r' => ['\\', 'r']
  | '\t' => ['\\', 't']
  | '\x08' => ['\\', 'b']
  | '\x0c' => ['\\', 'f']
  | c =>
    if c.toNat < 0x20 then
      ['\\', 'u', '0', '0', hexDigit (c.toNat / 16), hexDigit (c.toNat % 16)]
    else
      [c]

def quote (s : String) : String :=
  "\"" ++ String.ofList (s.toList.flatMap escapeChar) ++ "\""

def indent (depth : Nat) : String :=
  "\n" ++ String.ofList (List.replicate (2 * depth) ' ')

mutual

/-- The text of a value whose lines stand at this depth. -/
def render (depth : Nat) : Json → String
  | null => "null"
  | number n => toString n
  | string s => quote s
  | array [] => "[]"
  | array (item :: rest) =>
    "[" ++ indent (depth + 1) ++ render (depth + 1) item ++ renderItems (depth + 1) rest ++
      indent depth ++ "]"
  | object [] => "\x7b\x7d"
  | object ((key, v) :: rest) =>
    "\x7b" ++ indent (depth + 1) ++ quote key ++ ": " ++ render (depth + 1) v ++
      renderMembers (depth + 1) rest ++ indent depth ++ "\x7d"

def renderItems (depth : Nat) : List Json → String
  | [] => ""
  | item :: rest => "," ++ indent depth ++ render depth item ++ renderItems depth rest

def renderMembers (depth : Nat) : List (String × Json) → String
  | [] => ""
  | (key, v) :: rest =>
    "," ++ indent depth ++ quote key ++ ": " ++ render depth v ++ renderMembers depth rest

end

def text (j : Json) : String :=
  j.render 0

end Json

end MakeLint.Output
