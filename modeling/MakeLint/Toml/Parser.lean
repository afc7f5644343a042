import MakeLint.Toml.Number
import MakeLint.Toml.Text
import MakeLint.Toml.Value
/-!
# Reading TOML

A document is read line by line into a table. Arrays and braces nest to a fixed depth. Every call of
the value reader for a smaller piece of text spends fuel, and the length of the text bounds how much
is needed.
-/

namespace MakeLint.Toml

/-- Nesting from this depth on is refused. -/
def depthLimit : Nat := 80

def dropWhite (cs : List Char) : List Char :=
  cs.dropWhile isWhite

/-- What follows the end of the line, where nothing but a comment may stand before it. -/
def lineEnd? (cs : List Char) : Option (List Char) :=
  let rest := match dropWhite cs with
    | '#' :: comment => comment.dropWhile isTextChar
    | rest => rest
  match rest with
  | [] => some []
  | '\n' :: rest => some rest
  | '\r' :: '\n' :: rest => some rest
  | _ => none

/-- Skips white space, newlines and comments between the items of an array. -/
def skipLines (comment : Bool) : List Char → Option (List Char)
  | '\n' :: rest => skipLines false rest
  | '\r' :: '\n' :: rest => skipLines false rest
  | c :: rest =>
    if comment then
      if isTextChar c then skipLines true rest else none
    else if isWhite c then skipLines false rest
    else if c = '#' then skipLines true rest
    else some (c :: rest)
  | [] => some []

/-! ### Keys -/

def isBareKey (c : Char) : Bool :=
  c.isAlphanum || c = '_' || c = '-'

def simpleKey : List Char → Lexed
  | '"' :: rest => basic rest
  | '\'' :: rest => literal rest
  | cs =>
    let key := cs.takeWhile isBareKey
    if key.isEmpty then none else some (key, cs.drop key.length)

/-- The parts of a dotted key, white space around each left out. -/
def dottedKey : Nat → List Char → Option (List String × List Char)
  | 0, _ => none
  | fuel + 1, cs => do
    let (part, rest) ← simpleKey (dropWhite cs)
    match dropWhite rest with
    | '.' :: rest => do
      let (parts, rest) ← dottedKey fuel rest
      some (String.ofList part :: parts, rest)
    | rest => some ([String.ofList part], rest)

/-- The path and the last part of a key. -/
def key? (cs : List Char) : Option (List String × String × List Char) := do
  let (parts, rest) ← dottedKey depthLimit cs
  let last ← parts.getLast?
  if parts.length < depthLimit then some (parts.dropLast, last, rest) else none

/-! ### Values -/

def isWordChar (c : Char) : Bool :=
  c.isAlphanum || c = '+' || c = '-' || c = '.' || c = '_' || c = ':'

/-- A value that is one word, or a date and a time with a space between them. -/
def word? (cs : List Char) : Option (Value × List Char) :=
  let word := cs.takeWhile isWordChar
  let rest := cs.drop word.length
  if word = ['t', 'r', 'u', 'e'] then some (.boolean true, rest)
  else if word = ['f', 'a', 'l', 's', 'e'] then some (.boolean false, rest)
  else
    match integer? word with
    | some n => some (.integer n, rest)
    | none =>
      if isFloat word then some (.float, rest)
      else if isDate word then
        match rest with
        | ' ' :: more =>
          let time := more.takeWhile isWordChar
          if isOffsetTime time then some (.datetime, more.drop time.length)
          else some (.datetime, rest)
        | _ => some (.datetime, rest)
      else if isDateTime word then some (.datetime, rest)
      else none

def stringValue (s : Lexed) : Option (Value × List Char) :=
  s.map fun r => (.string (String.ofList r.1), r.2)

mutual

def value? : Nat → Nat → List Char → Option (Value × List Char)
  | 0, _, _ => none
  | fuel + 1, depth, cs =>
    match cs with
    | '"' :: '"' :: '"' :: rest => stringValue (multilineBasic false (dropNewline rest))
    | '"' :: rest => stringValue (basic rest)
    | '\'' :: '\'' :: '\'' :: rest => stringValue (multilineLiteral (dropNewline rest))
    | '\'' :: rest => stringValue (literal rest)
    | '[' :: rest =>
      if depth + 1 < depthLimit then
        (items? fuel (depth + 1) rest).map fun r => (.array r.1, r.2)
      else
        none
    | '{' :: rest =>
      if depth + 1 < depthLimit then
        match dropWhite rest with
        | '}' :: rest => some (.table .inline [], rest)
        | rest => (pairs? fuel (depth + 1) [] rest).map fun r => (.table .inline r.1, r.2)
      else
        none
    | cs => word? cs

/-- The items of an array up to its closing bracket. -/
def items? : Nat → Nat → List Char → Option (List Value × List Char)
  | 0, _, _ => none
  | fuel + 1, depth, cs =>
    match skipLines false cs with
    | none => none
    | some (']' :: rest) => some ([], rest)
    | some rest =>
      match value? fuel depth rest with
      | none => none
      | some (item, rest) =>
        match skipLines false rest with
        | some (',' :: rest) => (items? fuel depth rest).map fun r => (item :: r.1, r.2)
        | some (']' :: rest) => some ([item], rest)
        | _ => none

/-- The pairs of a table in braces up to its closing brace. -/
def pairs? : Nat → Nat → Entries → List Char → Option (Entries × List Char)
  | 0, _, _, _ => none
  | fuel + 1, depth, entries, cs =>
    match key? cs with
    | some (path, key, '=' :: rest) =>
      match value? fuel depth (dropWhite rest) with
      | none => none
      | some (v, rest) =>
        match entries.addKey path key v, dropWhite rest with
        | some entries, ',' :: rest => pairs? fuel depth entries rest
        | some entries, '}' :: rest => some (entries, rest)
        | _, _ => none
    | _ => none

end

/-! ### Documents -/

/-- The table that keys are added to is the one at `header`. -/
def lines? : Nat → List String → Entries → List Char → Option Entries
  | 0, _, _, _ => none
  | fuel + 1, header, root, cs =>
    match dropWhite cs with
    | [] => some root
    | '[' :: '[' :: rest =>
      match key? rest with
      | some (path, key, ']' :: ']' :: rest) => do
        lines? fuel (path ++ [key]) (← root.addElement path key) (← lineEnd? rest)
      | _ => none
    | '[' :: rest =>
      match key? rest with
      | some (path, key, ']' :: rest) => do
        lines? fuel (path ++ [key]) (← root.addTable path key) (← lineEnd? rest)
      | _ => none
    | c :: rest =>
      if c = '#' || c = '\n' || c = '\r' then
        (lineEnd? (c :: rest)).bind (lines? fuel header root ·)
      else
        match key? (c :: rest) with
        | some (path, key, '=' :: rest) => do
          let (v, rest) ← value? (3 * rest.length + 3) 0 (dropWhite rest)
          let root ← root.modifyAt false (fun _ t => t.addKey path key v) header .header
          lines? fuel header root (← lineEnd? rest)
        | _ => none

/-- The table that a document stands for. A byte order mark may come first. -/
def parse? (text : String) : Option Entries :=
  let cs := match text.toList with
    | '\ufeff' :: rest => rest
    | cs => cs
  lines? (cs.length + 1) [] [] cs

end MakeLint.Toml
