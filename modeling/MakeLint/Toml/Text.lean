/-!
# TOML strings

The four ways to write a string, each from just after its opening quotes to just after its closing
ones. A string on several lines may hold up to two of its quotes in a row, also right before the
closing ones, and a newline right after the opening ones is not part of it.
-/

namespace MakeLint.Toml

/-- A string's characters and what follows it. -/
abbrev Lexed := Option (List Char × List Char)

namespace Lexed

def cons (c : Char) (s : Lexed) : Lexed :=
  s.map fun r => (c :: r.1, r.2)

end Lexed

def isTextChar (c : Char) : Bool :=
  c = '\t' || (0x20 ≤ c.toNat && c.toNat ≠ 0x7f)

def hexDigit? (c : Char) : Option Nat :=
  if '0' ≤ c ∧ c ≤ '9' then some (c.toNat - '0'.toNat)
  else if 'a' ≤ c ∧ c ≤ 'f' then some (c.toNat - 'a'.toNat + 10)
  else if 'A' ≤ c ∧ c ≤ 'F' then some (c.toNat - 'A'.toNat + 10)
  else none

/-- The character with this hexadecimal number. -/
def scalar? (digits : List Char) : Option Char := do
  let values ← digits.mapM hexDigit?
  let n := values.foldl (fun n d => n * 16 + d) 0
  if n.isValidChar then some (Char.ofNat n) else none

/-- The character that a letter stands for after a backslash. -/
def escaped? : Char → Option Char
  | 'b' => some '\x08'
  | 't' => some '\t'
  | 'n' => some '\n'
  | 'f' => some '\x0c'
  | 'r' => some '\r'
  | '"' => some '"'
  | '\\' => some '\\'
  | _ => none

def basic : List Char → Lexed
  | '"' :: rest => some ([], rest)
  | '\\' :: 'u' :: a :: b :: c :: d :: rest =>
    match scalar? [a, b, c, d] with
    | some x => (basic rest).cons x
    | none => none
  | '\\' :: 'U' :: a :: b :: c :: d :: e :: f :: g :: h :: rest =>
    match scalar? [a, b, c, d, e, f, g, h] with
    | some x => (basic rest).cons x
    | none => none
  | '\\' :: c :: rest =>
    match escaped? c with
    | some x => (basic rest).cons x
    | none => none
  | c :: rest => if isTextChar c then (basic rest).cons c else none
  | [] => none

def literal : List Char → Lexed
  | '\'' :: rest => some ([], rest)
  | c :: rest => if isTextChar c then (literal rest).cons c else none
  | [] => none

/-- The quotes that still belong to the text where three of them have just closed it. -/
def closing (quote : Char) : List Char → List Char × List Char
  | a :: b :: rest =>
    if a = quote then
      if b = quote then ([quote, quote], rest) else ([quote], b :: rest)
    else
      ([], a :: b :: rest)
  | [a] => if a = quote then ([quote], []) else ([], [a])
  | [] => ([], [])

def isWhite (c : Char) : Bool :=
  c = ' ' || c = '\t'

/-- Only white space is left on the line. -/
def atLineEnd (cs : List Char) : Bool :=
  match cs.dropWhile isWhite with
  | '\n' :: _ | '\r' :: '\n' :: _ => true
  | _ => false

/-- `skipping` after a backslash at the end of a line, up to the next text. -/
def multilineBasic (skipping : Bool) : List Char → Lexed
  | '"' :: '"' :: '"' :: rest => some (closing '"' rest)
  | '\\' :: 'u' :: a :: b :: c :: d :: rest =>
    match scalar? [a, b, c, d] with
    | some x => (multilineBasic false rest).cons x
    | none => none
  | '\\' :: 'U' :: a :: b :: c :: d :: e :: f :: g :: h :: rest =>
    match scalar? [a, b, c, d, e, f, g, h] with
    | some x => (multilineBasic false rest).cons x
    | none => none
  | '\\' :: c :: rest =>
    match escaped? c with
    | some x => (multilineBasic false rest).cons x
    | none => if atLineEnd (c :: rest) then multilineBasic true (c :: rest) else none
  | '\r' :: '\n' :: rest =>
    if skipping then multilineBasic true rest else (multilineBasic false rest).cons '\n'
  | c :: rest =>
    if skipping && (isWhite c || c = '\n') then multilineBasic true rest
    else if isTextChar c || c = '\n' then (multilineBasic false rest).cons c
    else none
  | [] => none

def multilineLiteral : List Char → Lexed
  | '\'' :: '\'' :: '\'' :: rest => some (closing '\'' rest)
  | '\r' :: '\n' :: rest => (multilineLiteral rest).cons '\n'
  | c :: rest =>
    if isTextChar c || c = '\n' then (multilineLiteral rest).cons c else none
  | [] => none

def dropNewline : List Char → List Char
  | '\n' :: rest => rest
  | '\r' :: '\n' :: rest => rest
  | cs => cs

end MakeLint.Toml
