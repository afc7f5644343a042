import MakeLint.Text.Bytes
/-!
# Glob patterns

A pattern is a row of tokens. Two stars are special only as a whole component, where they stand for
any number of directories; elsewhere they are two single stars. Braces group alternatives, which may
nest. A backslash takes the special meaning from the next character, though not inside brackets.
-/

namespace MakeLint.Glob

inductive Error where
  | unclosedClass
  | invalidRange (low high : Char)
  | unclosedGroup
  | unopenedGroup
  | danglingEscape
  deriving DecidableEq

def Error.message : Error → String
  | unclosedClass => "unclosed character class; missing ']'"
  | invalidRange low high =>
    "invalid range; '" ++ String.singleton low ++ "' > '" ++ String.singleton high ++ "'"
  | unclosedGroup =>
    "unclosed alternate group; missing '\x7d' (maybe escape '\x7b' with '[\x7b]'?)"
  | unopenedGroup =>
    "unopened alternate group; missing '\x7b' (maybe escape '\x7d' with '[\x7d]'?)"
  | danglingEscape => "dangling '\\'"

inductive Token where
  | char (c : Char)
  | any
  | star
  | cls (negated : Bool) (ranges : List (Char × Char))
  /-- Two stars at the start. -/
  | leadingDirs
  /-- Two stars at the end, with the slash before them. -/
  | trailingDirs
  /-- Two stars in the middle, with the slashes around them. -/
  | innerDirs
  | group (branches : List (List Token))

/-! ### Character classes -/

/-- A class that is being read. The ranges are in reverse. -/
structure ClassReader where
  ranges : List (Char × Char) := []
  first : Bool := true
  /-- A dash has been read that may stand between two characters. -/
  dash : Bool := false

namespace ClassReader

/-- Extends the last range up to a character. -/
def extend (r : ClassReader) (c : Char) : Except Error ClassReader :=
  match r.ranges with
  | (low, _) :: rest =>
    if c < low then .error (.invalidRange low c)
    else .ok { ranges := (low, c) :: rest, first := false, dash := false }
  | [] => .ok { ranges := [(c, c)], first := false, dash := false }

def add (r : ClassReader) (c : Char) : ClassReader :=
  { ranges := (c, c) :: r.ranges, first := false, dash := false }

def finish (r : ClassReader) : List (Char × Char) :=
  (if r.dash then ('-', '-') :: r.ranges else r.ranges).reverse

end ClassReader

/-- The ranges of a class and the text after its closing bracket; nothing if it is never closed. -/
def readClass (r : ClassReader) :
    (cs : List Char) → Except Error (Option (List (Char × Char) × { rest : List Char //
      rest.length < cs.length }))
  | [] => .ok none
  | c :: cs =>
    let wider (x : Except Error (Option (List (Char × Char) × { rest : List Char //
        rest.length < cs.length }))) : Except Error (Option (List (Char × Char) × { rest : List Char //
        rest.length < (c :: cs).length })) :=
      x.map fun o => o.map fun (ranges, rest) =>
        (ranges, ⟨rest.1, Nat.lt_trans rest.2 (Nat.lt_succ_self _)⟩)
    if c = ']' && !r.first then .ok (some (r.finish, ⟨cs, Nat.lt_succ_self _⟩))
    else if c = '-' && !r.first && !r.dash then wider (readClass { r with dash := true } cs)
    else if r.dash then
      match r.extend c with
      | .error e => .error e
      | .ok r => wider (readClass r cs)
    else wider (readClass (r.add c) cs)

/-! ### Patterns -/

/-- A group that is being read: what stands before it, and its finished branches, in reverse. -/
structure Group where
  before : List Token
  branches : List (List Token)

/-- The tokens of the branch that is being read are in reverse. -/
structure Reader where
  tokens : List Token := []
  groups : List Group := []
  /-- The character read last. -/
  previous : Option Char := none
  /-- A bracket was never closed, and no later one is special. -/
  plainBrackets : Bool := false

namespace Reader

def push (r : Reader) (t : Token) : Reader :=
  { r with tokens := t :: r.tokens }

def openGroup (r : Reader) : Reader :=
  { r with tokens := [], groups := ⟨r.tokens, []⟩ :: r.groups }

def nextBranch (r : Reader) : Reader :=
  match r.groups with
  | [] => r.push (.char ',')
  | g :: rest => { r with tokens := [], groups := ⟨g.before, r.tokens.reverse :: g.branches⟩ :: rest }

def closeGroup (r : Reader) : Except Error Reader :=
  match r.groups with
  | [] => .error .unopenedGroup
  | g :: rest =>
    let branches := (r.tokens.reverse :: g.branches).reverse
    .ok { r with tokens := .group branches :: g.before, groups := rest }

/-- Puts the token for two stars in the place of the slash before them, or of the two stars before
that slash. -/
def replaceLast (r : Reader) (t : Token) : Reader :=
  match r.tokens with
  | .leadingDirs :: _ => r
  | .trailingDirs :: _ => r
  | _ :: rest => { r with tokens := t :: rest }
  | [] => r.push t

/-- Two stars with the text after them: the reader, and whether it takes the next character too. -/
def twoStars (r : Reader) (next : Option Char) : Reader × Bool :=
  let plain := ((r.push .star).push .star, false)
  if r.tokens.isEmpty then
    match next with
    | none => (r.push .leadingDirs, false)
    | some c => if c = '/' then (r.push .leadingDirs, true) else plain
  else if r.previous = some '/' ||
      (!r.groups.isEmpty && (r.previous = some ',' || r.previous = some '{')) then
    match next with
    | none => (r.replaceLast .trailingDirs, false)
    | some c =>
      if (c = ',' || c = '}') && !r.groups.isEmpty then (r.replaceLast .trailingDirs, false)
      else if c = '/' then (r.replaceLast .innerDirs, true)
      else plain
  else plain

def after (r : Reader) (c : Char) : Reader :=
  { r with previous := some c }

/-- Reads a pattern; `lenient` takes a bracket that is never closed as it stands. -/
def read (lenient : Bool) (r : Reader) (cs : List Char) : Except Error Reader :=
  match cs with
  | [] => .ok r
  | '?' :: cs => ((r.push .any).after '?').read lenient cs
  | '*' :: '*' :: cs =>
    match r.twoStars cs.head?, cs with
    | (r, true), c :: cs => (r.after c).read lenient cs
    | (r, _), cs => (r.after '*').read lenient cs
  | '*' :: cs => ((r.push .star).after '*').read lenient cs
  | '{' :: cs => (r.openGroup.after '{').read lenient cs
  | '}' :: cs =>
    match r.closeGroup with
    | .error e => .error e
    | .ok r => (r.after '}').read lenient cs
  | ',' :: cs => (r.nextBranch.after ',').read lenient cs
  | ['\\'] => .error .danglingEscape
  | '\\' :: c :: cs => ((r.push (.char c)).after c).read lenient cs
  | '[' :: cs =>
    let negated := cs.head? = some '!' || cs.head? = some '^'
    if r.plainBrackets then
      ((r.push (.char '[')).after '[').read lenient cs
    else
      match readClass {} (if negated then cs.tail else cs) with
      | .error e => .error e
      | .ok (some (ranges, ⟨rest, h⟩)) =>
        have : rest.length < cs.length + 1 := by
          split at h <;> simp_all <;> omega
        ((r.push (.cls negated ranges)).after ']').read lenient rest
      | .ok none =>
        if lenient then
          ({ r.push (.char '[') with plainBrackets := true }.after '[').read lenient cs
        else
          .error .unclosedClass
  | c :: cs => ((r.push (.char c)).after c).read lenient cs
termination_by cs.length

end Reader

/-- The tokens of a pattern. -/
def tokens? (lenient : Bool) (pattern : String) : Except Error (List Token) :=
  match ({ : Reader }).read lenient pattern.toList with
  | .error e => .error e
  | .ok r => if r.groups.isEmpty then .ok r.tokens.reverse else .error .unclosedGroup

end MakeLint.Glob
