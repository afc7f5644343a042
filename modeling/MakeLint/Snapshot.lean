import MakeLint.CommandLine
/-!
# Snapshots

Copies of the files that a run may look at, taken from the file system before the run. A link is
copied as a link to where it leads; one that leads nowhere stays a link to a place that is not there,
and one that leads back to itself stays a loop.
-/

namespace MakeLint.Snapshot

def pathText (place : List String) : String :=
  (FileView.absolute place).text

def places (text : String) : List String :=
  (Path.mk text).parts.filter (!Path.isFiller ·)

def currentPlace : IO (List String) := do
  return places (← IO.currentDir).toString

/-- The type of what a path names itself. -/
def kind? (path : String) : IO (Option IO.FS.FileType) := do
  try
    let data ← ((← IO.currentDir) / path).symlinkMetadata
    return some data.type
  catch _ => return none

def fileNode (path : String) : IO Node := do
  try
    return .file (← IO.FS.readBinFile path).toList
  catch _ => return .locked

/-- Whether a path leads to a device or a pipe. -/
def isDevice (path : String) : IO Bool := do
  try
    match (← ((← IO.currentDir) / path).metadata).type with
    | .other => return true
    | _ => return false
  catch _ => return false

/-- A device or a pipe with what can be read from it now. -/
def deviceNode (path : String) : IO Node := do
  try
    return .device (← IO.FS.readBinFile path).toList
  catch _ => return .device []

/-- Where a link leads. -/
def linkTarget (path : String) : IO Path := do
  try
    let _ ← ((← IO.currentDir) / path).metadata
    return ⟨(← IO.FS.realPath path).toString⟩
  catch e =>
    match e with
    | .noFileOrDirectory .. => return ⟨"/\x00"⟩
    | _ => return ⟨path⟩

def keep (place : List String) (node root : Node) : Node :=
  match root.get? place with
  | some _ => root
  | none => Node.put node place root

/-- Copies what lies on a path, from a place that has no links in it. -/
partial def onPath (root : Node) (place : List String) : List String → IO Node
  | [] => return root
  | part :: rest => do
    if Path.isFiller part then
      onPath root place rest
    else if part = ".." then
      onPath root place.dropLast rest
    else
      let here := place ++ [part]
      if ← isDevice (pathText here) then
        return Node.put (← deviceNode (pathText here)) here root
      match ← kind? (pathText here) with
      | none | some .other => return root
      | some .dir => onPath (keep here (.directory []) root) here rest
      | some .symlink =>
        let target ← linkTarget (pathText here)
        let root := Node.put (.link target) here root
        if target.text = pathText here then
          return root
        else
          onPath root [] (target.parts ++ rest)
      | some .file => return Node.put (← fileNode (pathText here)) here root

def path (root : Node) (p : Path) : IO Node := do
  let start ← if p.isAbsolute then pure [] else currentPlace
  onPath root [] (start ++ p.parts)

def paths (root : Node) (ps : List Path) : IO Node :=
  ps.foldlM path root

/-- A directory with all that lies below it. The files are left empty. -/
partial def outline (place : List String) : IO Node := do
  let entries ← try ((← IO.currentDir) / pathText place).readDir catch _ => pure #[]
  let nodes ← entries.toList.mapM fun entry => do
    let here := place ++ [entry.fileName]
    let node ← match ← kind? (pathText here) with
      | some .dir => outline here
      | some .symlink => pure (.link (← linkTarget (pathText here)))
      | some .other => pure (.device [])
      | _ => pure (.file [])
    return (entry.fileName, node)
  return .directory nodes

def specialNames : List String :=
  [".ignore", ".gitignore", ".git", ".jj", "exclude", "commondir"]

/-- The places of links and of ignore files below a directory. -/
def special (n : Node) : List (List String) :=
  (n.walk (fun _ _ _ => some ()) ()).filterMap fun (below, node) =>
    match node with
    | .link _ => some below
    | .directory _ => none
    | _ =>
      if specialNames.contains (below.getLast?.getD "") then some below else none

/-- The ignore files of a directory and of those above it. -/
def ignoreFiles (place : List String) : List Path :=
  (List.range (place.length + 1)).flatMap fun n =>
    [".ignore", ".gitignore", ".git", ".git/info/exclude", ".jj"].map
      (FileView.absolute (place.take n)).join

def tree (root : Node) (p : Path) : IO Node := do
  let root ← path root p
  match (FileView.mk root (← currentPlace)).find p with
  | .ok (place, .directory _) =>
    let below ← outline place
    let root := Node.put below place root
    let root ← paths root (ignoreFiles place)
    paths root ((special below).map fun s => FileView.absolute (place ++ s))
  | _ => return root

/-! ### What a run looks at -/

def configPaths (cwd : Path) (home : Option Path) (a : Arguments) : List Path :=
  let starts := [cwd] ++ a.inputs.head?.toList
  let dirs := starts.flatMap ConfigSearch.directories ++ home.toList
  dirs.flatMap (fun dir => ConfigSearch.fileNames.map dir.join) ++ a.configFile.toList

def makefilePaths (a : Arguments) : List Path :=
  (a.files ++ Makefile.standardNames).map Path.mk

/-- The files that hold the rules of the user, or say where they are. -/
def userPaths (e : Environment) : List Path :=
  let configs := Ignore.User.configFiles e
  let default := (Ignore.User.configHome? e).map (·.join "git/ignore")
  configs ++ (configs.filterMap (Ignore.User.named? e)) ++ default.toList

def withUserFiles (e : Environment) : IO Environment := do
  return { e with files := { e.files with root := ← paths e.files.root (userPaths e) } }

/-- The environment with the files that a run with these arguments looks at. -/
def environment (a : Arguments) (home : Option Path) (stdin : Bytes)
    (settings : List (String × String)) : IO Environment := do
  let here ← currentPlace
  let cwd := FileView.absolute here
  let known := [cwd] ++ configPaths cwd home a ++ makefilePaths a
  let root ← paths (.directory []) known
  let e : Environment := { files := ⟨root, here⟩, home, stdin, settings }
  match Config.load e a with
  | .error _ => return e
  | .ok c =>
    if !c.recursive || a.command.isSome then
      return e
    else
      let roots := if a.inputs.isEmpty then [⟨"."⟩] else a.inputs
      let root ← roots.foldlM tree root
      let root ← paths root known
      let e ← withUserFiles (← withUserFiles { e with files := ⟨root, here⟩ })
      match Discovery.discover e c roots with
      | .error _ => return e
      | .ok found => return { e with files := ⟨← paths e.files.root found.files, here⟩ }

end MakeLint.Snapshot
