import MakeLint.Ignore.Level
/-!
# What is ignored

Paths are matched as they are written. The directories of a walk see the path that the walk has
reached; the directories above the walk see the absolute path that takes its place. The nearest
directory with a rule for the path decides, `.ignore` files before `.gitignore` files before the
excludes of the repository before the rules that the user keeps for all repositories. The files of a
repository count only up to its top.
-/

namespace MakeLint.Ignore

/-- The text without this beginning, if it has it. -/
def withoutStart (start text : List Char) : List Char :=
  (start.isPrefixOf? text).getD text

def withoutDot (path : List Char) : List Char :=
  withoutStart ['.', '/'] path

def isCurrent (dir : List Char) : Bool :=
  (Path.mk (String.ofList dir)).components = [.current]

/-- A path as the rules of a directory see it. A bare file name stays as it is. -/
def seenFrom (dir : Path) (path : List Char) : List Char :=
  let root := withoutDot dir.text.toList
  let path := withoutDot path
  if isCurrent root || !path.contains '/' then
    path
  else
    match root.isPrefixOf? path with
    | some rest => withoutStart ['/'] rest
    | none => path

/-- Where a walk began: the root as it was written, and the place it stands for. -/
structure Start where
  root : Path
  place : List String

namespace Start

/-- The absolute path that stands for a path of the walk. -/
def absolute (s : Start) (path : List Char) : List Char :=
  let root := s.root.text.toList
  let below :=
    if isCurrent root then path
    else withoutStart ['/'] (withoutStart (withoutDot root) path)
  ((FileView.absolute s.place).join (String.ofList below)).text.toList

/-- The levels of the directories above the walk, nearest first. -/
def above (v : FileView) (s : Start) : List Level :=
  (List.range s.place.length).reverse.map fun n =>
    Level.ofDirectory v (FileView.absolute (s.place.take n))

end Start

/-- What a walk goes by. -/
structure Scope where
  start : Start
  /-- The levels of the directories that the walk has entered, nearest first. -/
  inner : List Level
  /-- The levels of the directories above the walk, nearest first. -/
  outer : List Level
  /-- The rules of the user, which are relative to the current directory. -/
  user : List Rule
  current : Path

namespace Scope

/-- A level with the path that it looks at. -/
abbrev View := Level × List Char

def views (s : Scope) (path : List Char) : List View :=
  let absolute := s.start.absolute path
  s.inner.map (fun l => (l, path)) ++ s.outer.map fun l => (l, absolute)

/-- The levels of the repository. -/
def repository : List View → List View
  | [] => []
  | w :: rest => if w.1.isRepository then [w] else w :: repository rest

def ask (views : List View) (rules : Level → List Rule) (isDirectory : Bool) : Option Bool :=
  views.findSome? fun (l, path) => verdict? (rules l) (seenFrom l.dir path) isDirectory

def askUser (s : Scope) (path : List Char) (isDirectory : Bool) : Option Bool :=
  verdict? s.user (seenFrom s.current path) isDirectory

def isIgnored (s : Scope) (path : Path) (isDirectory : Bool) : Bool :=
  let path := withoutDot path.text.toList
  let views := s.views path
  let own := ask views Level.ignore isDirectory
  let answer :=
    if views.any (·.1.isRepository) then
      own <|> ask (repository views) Level.gitignore isDirectory
        <|> ask (repository views) Level.exclude isDirectory
        <|> s.askUser path isDirectory
    else
      own
  answer = some false

/-- The scope below a directory. -/
def enter (s : Scope) (v : FileView) (dir : Path) : Scope :=
  { s with inner := Level.ofDirectory v dir :: s.inner }

end Scope

end MakeLint.Ignore
