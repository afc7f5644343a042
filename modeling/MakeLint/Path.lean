import MakeLint.Text.Blank
/-!
# Paths

A path is kept as it was written, since that is how it is shown. Two paths name the same place in the
same way when their components agree: repeated slashes and inner single dots make no component.
Paths are ordered by their components, so that what lies under a directory stays together.
-/

namespace MakeLint

structure Path where
  text : String
  deriving DecidableEq

namespace Path

inductive Component where
  | root
  | current
  | parent
  | name (s : String)
  deriving DecidableEq

/-- The pieces of the text between slashes. -/
def parts (p : Path) : List String :=
  (Text.splitAll '/' p.text.toList).map String.ofList

def ofParts (parts : List String) : Path :=
  ⟨String.intercalate "/" parts⟩

def isAbsolute (p : Path) : Bool :=
  p.text.toList.head? = some '/'

/-- A piece that makes no component after the first. -/
def isFiller (part : String) : Bool :=
  part = "" || part = "."

def component (part : String) : Component :=
  if part = ".." then .parent else .name part

/-- The component that only the first piece of a path can make, and the pieces after it. -/
def splitHead (p : Path) : Option (String × Component) × List String :=
  match p.parts with
  | "." :: rest => (some (".", .current), rest)
  | "" :: rest => if p.isAbsolute then (some ("", .root), rest) else (none, rest)
  | parts => (none, parts)

def components (p : Path) : List Component :=
  let (first, rest) := p.splitHead
  (first.map (·.2)).toList ++ (rest.filter (!isFiller ·)).map component

def fileName? (p : Path) : Option String :=
  match p.components.getLast? with
  | some (.name s) => some s
  | _ => none

def join (p : Path) (name : String) : Path :=
  if name.toList.head? = some '/' then ⟨name⟩
  else if p.text = "" then ⟨name⟩
  else if p.text.toList.getLast? = some '/' then ⟨p.text ++ name⟩
  else ⟨p.text ++ "/" ++ name⟩

def trimFiller (parts : List String) : List String :=
  (parts.reverse.dropWhile isFiller).reverse

/-- The path without its last component, taken from the text alone. -/
def parent? (p : Path) : Option Path :=
  let (first, rest) := p.splitHead
  match trimFiller rest, first with
  | [], some (_, .current) => some ⟨""⟩
  | [], _ => none
  | body, first =>
    match trimFiller body.dropLast, first with
    | [], some ("", _) => some ⟨"/"⟩
    | kept, first => some (ofParts ((first.map (·.1)).toList ++ kept))

/-! ### Order -/

namespace Component

def rank : Component → Nat
  | root => 0
  | current => 1
  | parent => 2
  | name _ => 3

def compare : Component → Component → Ordering
  | name s, name t => compareOfLessAndEq s t
  | a, b => compareOfLessAndEq a.rank b.rank

end Component

def compareComponents : List Component → List Component → Ordering
  | [], [] => .eq
  | [], _ :: _ => .lt
  | _ :: _, [] => .gt
  | a :: as, b :: bs => (a.compare b).then (compareComponents as bs)

def compare (p q : Path) : Ordering :=
  compareComponents p.components q.components

def le (p q : Path) : Bool :=
  p.compare q ≠ .gt

/-- The paths of an ordered list that begins with `p`, of equal ones the first. -/
def distinctFrom (p : Path) : List Path → List Path
  | [] => [p]
  | q :: rest => if p.compare q = .eq then distinctFrom p rest else p :: distinctFrom q rest

def distinct : List Path → List Path
  | [] => []
  | p :: rest => distinctFrom p rest

/-- The paths in order, of equal ones the first. -/
def sorted (paths : List Path) : List Path :=
  distinct (paths.mergeSort le)

end Path

end MakeLint
