import MakeLint.Config.Search
import MakeLint.Ignore.User
import MakeLint.Ignore.Verdict
import MakeLint.Makefile.Linting
/-!
# Discovery

The makefiles under some roots. A root that is a file is taken as it is. Below a root that is a
directory every file is taken whose name a pattern matches, a link to a file among them; links to
directories are not followed there, and what is ignored is left out with all that lies below it. A
dash is no directory but standard input, which is taken if its name is that of a file.
-/

namespace MakeLint.Discovery

/-- Where the walk stands. -/
structure Walk where
  path : Path
  depth : Nat
  scope : Ignore.Scope

def step (v : FileView) (c : Config) (w : Walk) (name : String) (node : Node) : Option Walk :=
  let path := w.path.join name
  if 0 < c.maxDepth && c.maxDepth ≤ w.depth then none
  else if !c.gitignore then some ⟨path, w.depth + 1, w.scope⟩
  else if w.scope.isIgnored path node.isDirectory then none
  else some ⟨path, w.depth + 1, if node.isDirectory then w.scope.enter v path else w.scope⟩

/-- Whether what is found under a directory is a file, be it through a link. -/
def isFileAt (v : FileView) (path : Path) (node : Node) : Bool :=
  match node with
  | .file _ | .locked => true
  | .link _ => v.isFile path
  | .device _ | .directory _ => false

def isWanted (globs : List Glob) (name : String) : Bool :=
  globs.any (·.isMatch name)

/-- The makefiles below a directory. -/
def under (v : FileView) (c : Config) (globs : List Glob) (root : Path) (scope : Ignore.Scope)
    (node : Node) : List Path :=
  (node.walk (step v c) ⟨root, 0, scope⟩).filterMap fun (below, found) =>
    let path := below.foldl Path.join root
    if isFileAt v path found && isWanted globs (below.getLast?.getD "") then some path else none

/-- The scope of a walk that begins at a directory. -/
def scopeAt (e : Environment) (root : Path) (place : List String) : Ignore.Scope :=
  let start : Ignore.Start := ⟨root, place⟩
  { start := start
    inner := [Ignore.Level.ofDirectory e.files root]
    outer := start.above e.files
    user := Ignore.User.rules e
    current := e.files.currentPath }

/-- The scope of a walk that ignores nothing. -/
def openScope (e : Environment) (root : Path) (place : List String) : Ignore.Scope :=
  ⟨⟨root, place⟩, [], [], [], e.files.currentPath⟩

inductive Remark where
  /-- Neither a file nor a directory. -/
  | absent (path : Path)
  /-- What is wrong in the ignore files of the directories above a root. -/
  | problems (all : List Ignore.Problem)

def Remark.message : Remark → String
  | absent path => "path does not exist: " ++ path.text
  | problems all => String.intercalate "\n" (all.map Ignore.Problem.message)

/-- The problems above a walk, from the top down. -/
def remarks (s : Ignore.Scope) : List Remark :=
  match s.outer.reverse.flatMap Ignore.Level.problems with
  | [] => []
  | all => [.problems all]

def isDash (root : Path) : Bool :=
  root.components = [.name "-"]

def standardInput (v : FileView) (globs : List Glob) : List Path :=
  [Path.mk Makefile.stdinName].filter fun path => v.isFile path && isWanted globs path.text

def ofRoot (e : Environment) (c : Config) (globs : List Glob) (root : Path) :
    List Path × List Remark :=
  match e.files.find root with
  | .ok (_, .file _) | .ok (_, .locked) => ([root], [])
  | .ok (place, .directory es) =>
    if isDash root then
      (standardInput e.files globs, [])
    else
      let scope := if c.gitignore then scopeAt e root place else openScope e root place
      (under e.files c globs root scope (.directory es), remarks scope)
  | _ => ([], [.absent root])

structure Found where
  /-- In the order of paths, each once. -/
  files : List Path
  /-- In the order of the roots. -/
  remarks : List Remark

def discover (e : Environment) (c : Config) (roots : List Path) : Except Failure Found :=
  match Glob.parseList c.glob with
  | .error cause => .error (.badGlobs cause)
  | .ok globs =>
    let results := roots.map (ofRoot e c globs)
    .ok ⟨Path.sorted (results.flatMap (·.1)), results.flatMap (·.2)⟩

end MakeLint.Discovery
