import MakeLint.Ignore.Rule
/-!
# Ignore levels

The ignore files of one directory. An `.ignore` file counts everywhere; a `.gitignore` file and the
excludes of a repository count only inside a repository. A directory is a repository when it holds a
`.git` or a `.jj`.
-/

namespace MakeLint.Ignore

structure Level where
  /-- The directory as it was reached. -/
  dir : Path
  ignore : List Rule
  gitignore : List Rule
  exclude : List Rule
  isRepository : Bool
  problems : List Problem

namespace Level

/-- The first line of a file, if it has one. -/
def firstLine? (v : FileView) (file : Path) : Except Problem (Option (List Char)) :=
  match v.read file with
  | .error cause => .error (.unreadable file cause)
  | .ok content =>
    match lines content with
    | [] => .ok none
    | line :: _ =>
      match Utf8.decode? line with
      | some text => .ok (some text.toList)
      | none => .error (.unreadable file .notUtf8)

/-- Whether a file is there and may be opened. -/
def opens (v : FileView) (file : Path) : Bool :=
  match v.openable file with
  | .ok _ => true
  | .error _ => false

/-- The directory that a `.git` file names. -/
def namedDirectory? (line : List Char) : Option Path :=
  ("gitdir: ".toList.isPrefixOf? line).map fun name => ⟨String.ofList name⟩

/-- The directory that holds what all working trees of a repository share, if it can be told. A
`.git` that is a file names the directory of a working tree, which names the shared one. -/
def sharedDirectory? (v : FileView) (dir : Path) : Except Problem (Option Path) := do
  let git := dir.join ".git"
  if !v.isFile git then
    return some git
  let some line ← firstLine? v git | return none
  let some tree := namedDirectory? line | return none
  let common := tree.join "commondir"
  if !opens v common then
    return none
  let some shared ← firstLine? v common | return none
  let name := String.ofList shared
  return some (if shared.head? = some '.' then tree.join name else ⟨name⟩)

def excludes (v : FileView) (dir : Path) : RuleSet :=
  match sharedDirectory? v dir with
  | .ok (some git) => .ofFile v (git.join "info/exclude")
  | .ok none => {}
  | .error p => ⟨[], [p]⟩

def ofDirectory (v : FileView) (dir : Path) : Level :=
  let ignore := RuleSet.ofFile v (dir.join ".ignore")
  let gitignore := RuleSet.ofFile v (dir.join ".gitignore")
  let exclude := excludes v dir
  { dir := dir
    ignore := ignore.rules
    gitignore := gitignore.rules
    exclude := exclude.rules
    isRepository := v.exists? (dir.join ".git") || v.exists? (dir.join ".jj")
    problems := ignore.problems ++ gitignore.problems ++ exclude.problems }

end Level

end MakeLint.Ignore
