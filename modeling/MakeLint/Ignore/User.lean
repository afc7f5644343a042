import MakeLint.Environment
import MakeLint.Ignore.Rule
/-!
# Rules of the user

A user keeps rules for all repositories in a file. A Git configuration names it, where a tilde stands
for the home directory; when none does, it is the file that Git looks at by default. A configuration
is searched for one line with the name, whatever section that stands in.
-/

namespace MakeLint.Ignore.User

/-! ### The name in a configuration -/

def quote : UInt8 := 0x22

def equals : UInt8 := 0x3d

def skipSpace (bytes : Bytes) : Bytes :=
  bytes.dropWhile Byte.isSpace

def lower (b : UInt8) : UInt8 :=
  if 0x41 ≤ b && b ≤ 0x5a then b + 0x20 else b

/-- What follows a key, in whatever case it is written. -/
def afterKey? : (key bytes : Bytes) → Option Bytes
  | [], bytes => some bytes
  | _ :: _, [] => none
  | k :: key, b :: bytes => if lower b = k then afterKey? key bytes else none

/-- Whether a line ends within or right after the white space at the start. -/
def endsLine : Bytes → Bool
  | [] => true
  | b :: rest => b = Byte.newline || (Byte.isSpace b && endsLine rest)

/-- Whether nothing but a quote follows on the line. -/
def isDone (bytes : Bytes) : Bool :=
  endsLine bytes ||
    match skipSpace bytes with
    | b :: rest => b = quote && endsLine rest
    | [] => false

/-- The shortest value after which nothing follows. -/
def value? : Bytes → Option Bytes
  | [] => none
  | b :: rest =>
    if Byte.isSpace b then none
    else if isDone rest then some [b]
    else (value? rest).map (b :: ·)

/-- The value at the start, with or without the quote before it. -/
def quotedValue? (bytes : Bytes) : Option Bytes :=
  match bytes with
  | b :: rest => if b = quote then value? (skipSpace rest) <|> value? bytes else value? bytes
  | [] => none

def entry? (bytes : Bytes) : Option Bytes := do
  match skipSpace (← afterKey? (Bytes.ofString "excludesfile") (skipSpace bytes)) with
  | b :: rest => if b = equals then quotedValue? (skipSpace rest) else none
  | [] => none

/-- The entry at the start or at the start of a later line; `fresh` at the start of a line. -/
def search? (fresh : Bool) : Bytes → Option Bytes
  | [] => none
  | b :: rest =>
    (if fresh then entry? (b :: rest) else none) <|> search? (b = Byte.newline) rest

/-! ### The file -/

def home? (e : Environment) : Option Path :=
  match e.value? "HOME" with
  | some dir => some ⟨dir⟩
  | none => e.home

/-- The directory of the user's configuration files. -/
def configHome? (e : Environment) : Option Path :=
  let usual := (home? e).map (·.join ".config")
  match e.value? "XDG_CONFIG_HOME" with
  | some dir => if dir = "" then usual else some ⟨dir⟩
  | none => usual

def configFiles (e : Environment) : List Path :=
  match e.value? "GIT_CONFIG_GLOBAL" with
  | some file => [⟨file⟩]
  | none =>
    ((home? e).map (·.join ".gitconfig")).toList ++
      ((configHome? e).map (·.join "git/config")).toList

def withHome (e : Environment) (name : String) : Path :=
  match home? e with
  | some home => ⟨name.replace "~" home.text⟩
  | none => ⟨name⟩

/-- The file that a configuration names. -/
def named? (e : Environment) (config : Path) : Option Path :=
  match e.files.read config with
  | .ok content => (search? true content).bind Utf8.decode? |>.map (withHome e)
  | .error _ => none

def file? (e : Environment) : Option Path :=
  (configFiles e).findSome? (named? e) <|> (configHome? e).map (·.join "git/ignore")

def rules (e : Environment) : List Rule :=
  match file? e with
  | some file => if e.files.isFile file then (RuleSet.ofFile e.files file).rules else []
  | none => []

end MakeLint.Ignore.User
