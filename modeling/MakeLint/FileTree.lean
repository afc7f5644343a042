import MakeLint.Path
import MakeLint.Text.Utf8
/-!
# File trees

The files a run can see. A place in a tree is named by the names on the way from the root, and a path
is followed to its place through links, at most forty of them. What can go wrong on the way is told
apart as the operating system does. A name has at most 255 bytes and a path fewer than 4096.
-/

namespace MakeLint

inductive Node where
  | file (content : Bytes)
  /-- A file that may not be opened. -/
  | locked
  /-- A device or a pipe: it is read like a file but is not taken for one, and what is written to it
  is gone. -/
  | device (content : Bytes)
  | link (target : Path)
  | directory (entries : List (String × Node))

inductive IoError where
  | notFound
  | permissionDenied
  | notADirectory
  | isADirectory
  | tooManyLinks
  | nameTooLong
  | nulByte
  | notUtf8
  deriving DecidableEq

def IoError.message : IoError → String
  | notFound => "No such file or directory (os error 2)"
  | permissionDenied => "Permission denied (os error 13)"
  | notADirectory => "Not a directory (os error 20)"
  | isADirectory => "Is a directory (os error 21)"
  | tooManyLinks => "Too many levels of symbolic links (os error 40)"
  | nameTooLong => "File name too long (os error 36)"
  | nulByte => "file name contained an unexpected NUL byte"
  | notUtf8 => "stream did not contain valid UTF-8"

namespace Node

def isDirectory : Node → Bool
  | directory _ => true
  | _ => false

def entries : Node → List (String × Node)
  | directory es => es
  | _ => []

def child? (n : Node) (name : String) : Option Node :=
  n.entries.lookup name

def get? (n : Node) : List String → Option Node
  | [] => some n
  | name :: rest => (n.child? name).bind fun c => c.get? rest

def setEntry (name : String) (new : Node) : List (String × Node) → List (String × Node)
  | [] => [(name, new)]
  | (k, old) :: rest => if k = name then (k, new) :: rest else (k, old) :: setEntry name new rest

/-- Puts a node at a place, with the directories that are missing on the way. -/
def put (new : Node) : List String → Node → Node
  | [], _ => new
  | name :: rest, n =>
    directory (setEntry name (put new rest ((n.child? name).getD (directory []))) n.entries)

def remove : List String → Node → Node
  | [], n => n
  | [name], n => directory (n.entries.filter (·.1 ≠ name))
  | name :: rest, n =>
    match n.child? name with
    | none => n
    | some c => directory (setEntry name (remove rest c) n.entries)

mutual

/-- The places below a node with what is there. A step either skips a place together with all that
lies below it, or gives the state to go on with below it. -/
def walk {σ : Type} (step : σ → String → Node → Option σ) (s : σ) :
    Node → List (List String × Node)
  | directory es => walkEntries step s es
  | _ => []

def walkEntries {σ : Type} (step : σ → String → Node → Option σ) (s : σ) :
    List (String × Node) → List (List String × Node)
  | [] => []
  | (name, node) :: rest =>
    (match step s name node with
      | none => []
      | some s' => ([name], node) :: (walk step s' node).map fun (below, n) => (name :: below, n)) ++
    walkEntries step s rest

end

/-- Every file with its content. -/
def files (n : Node) : List (List String × Bytes) :=
  (n.walk (fun _ _ _ => some ()) ()).filterMap fun (place, node) =>
    match node with
    | file content => some (place, content)
    | _ => none

end Node

/-- A tree seen from a directory in it. -/
structure FileView where
  root : Node
  here : List String

namespace FileView

/-- Where a path leads. -/
inductive Target where
  | found (place : List String) (node : Node)
  /-- Nothing is there, but the directory it would be in is. -/
  | missing (place : List String)
  /-- The path ends in slashes, but what stands before them is no directory. -/
  | slashed (cause : IoError)

def isTooLong (name : String) : Bool :=
  255 < name.utf8ByteSize

/-- What becomes of a path when only these pieces are left after one that leads nowhere. -/
def slashedBy (rest : List String) : Except IoError Target → Except IoError Target
  | .error cause =>
    if !rest.isEmpty && rest.all (· = "") then .ok (.slashed cause) else .error cause
  | .ok t => .ok t

/-- Follows the pieces of a path from a place; so many links may still be followed. -/
def follow (root : Node) (links : Nat) (place : List String) (parts : List String) :
    Except IoError Target :=
  match root.get? place, parts with
  | none, _ => .error .notFound
  | some node, [] => .ok (.found place node)
  | some node, part :: rest =>
    if !node.isDirectory then slashedBy (part :: rest) (.error .notADirectory)
    else if Path.isFiller part then follow root links place rest
    else if part = ".." then follow root links place.dropLast rest
    else if isTooLong part then slashedBy rest (.error .nameTooLong)
    else
      match node.child? part, links with
      | none, _ =>
        if rest.isEmpty then .ok (.missing (place ++ [part]))
        else slashedBy rest (.error .notFound)
      | some (.link _), 0 => slashedBy rest (.error .tooManyLinks)
      | some (.link target), links + 1 =>
        slashedBy rest
          (follow root links (if target.isAbsolute then [] else place) (target.parts ++ rest))
      | some _, links => follow root links (place ++ [part]) rest
termination_by (links, parts.length)

def target (v : FileView) (p : Path) : Except IoError Target :=
  if p.text.contains '\x00' then .error .nulByte
  else if p.text = "" then .error .notFound
  else if 4096 ≤ p.text.utf8ByteSize then .error .nameTooLong
  else follow v.root 40 (if p.isAbsolute then [] else v.here) p.parts

def find (v : FileView) (p : Path) : Except IoError (List String × Node) :=
  match v.target p with
  | .ok (.found place node) => .ok (place, node)
  | .ok (.missing _) => .error .notFound
  | .ok (.slashed cause) => .error cause
  | .error e => .error e

def exists? (v : FileView) (p : Path) : Bool :=
  match v.find p with
  | .ok _ => true
  | .error _ => false

def isFile (v : FileView) (p : Path) : Bool :=
  match v.find p with
  | .ok (_, .file _) | .ok (_, .locked) => true
  | _ => false

def isDirectory (v : FileView) (p : Path) : Bool :=
  match v.find p with
  | .ok (_, .directory _) => true
  | _ => false

/-- A directory can be opened, though not read. -/
def openable (v : FileView) (p : Path) : Except IoError Unit :=
  match v.find p with
  | .ok (_, .locked) => .error .permissionDenied
  | .ok _ => .ok ()
  | .error e => .error e

def read (v : FileView) (p : Path) : Except IoError Bytes :=
  match v.find p with
  | .ok (_, .file content) | .ok (_, .device content) => .ok content
  | .ok (_, .locked) => .error .permissionDenied
  | .ok (_, .directory _) => .error .isADirectory
  | .ok (_, .link _) => .error .notFound
  | .error e => .error e

def readText (v : FileView) (p : Path) : Except IoError String := do
  match Utf8.decode? (← v.read p) with
  | some text => .ok text
  | none => .error .notUtf8

/-- Writes a file, a new one if there is none. -/
def write (v : FileView) (p : Path) (content : Bytes) : Except IoError FileView := do
  match ← v.target p with
  | .found _ (.directory _) => .error .isADirectory
  | .slashed _ => .error .isADirectory
  | .found _ .locked => .error .permissionDenied
  | .found _ (.device _) => .ok v
  | .found place _ => .ok { v with root := Node.put (.file content) place v.root }
  | .missing place => .ok { v with root := Node.put (.file content) place v.root }

/-- The path of a place. -/
def absolute (place : List String) : Path :=
  ⟨"/" ++ String.intercalate "/" place⟩

/-- The path of the directory that the tree is seen from. -/
def currentPath (v : FileView) : Path :=
  absolute v.here

end FileView

end MakeLint
