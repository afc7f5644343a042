import MakeLint.Failure
import MakeLint.Sink
/-!
# Selecting the makefile

The last makefile named on the command line is used. When none is named, the standard names are tried
in order: a name that does not exist is passed over, but one that exists must be usable.
-/

namespace MakeLint.Makefile

inductive Source where
  | stdin
  | file (path : Path)
  deriving DecidableEq

def standardNames : List String :=
  ["makefile", "Makefile"]

/-- What is said when a makefile is named more than once. -/
def repeatedNotices (files : List String) : List Notice :=
  if files.length > 1 then
    [.warn .cmdline .unspecified none
      ("the -f option has been specified multiple times, they are processed in order, but the " ++
        "behaviour is otherwise unspecified"),
      .info .cmdline
        "this implementation will use the last option and discard earlier options"]
  else
    []

/-- What is said when a standard makefile is found and others stand beside it. -/
def foundNotices (v : FileView) (dir found : Path) (others : List String) : List Notice :=
  .info .makefile ("found standard makefile to use: " ++ found.text) ::
    ((others.map dir.join).filter v.exists?).map fun extra =>
      .warn .extraMakefile .warning none
        ("found additional standard makefile, this can be confusing: " ++ extra.text)

def findStandard (v : FileView) (dir : Path) : List String → Except Failure Source × List Notice
  | [] => (.error .noMakefile, [])
  | name :: others =>
    let path := dir.join name
    match v.openable path with
    | .ok _ => (.ok (.file path), foundNotices v dir path others)
    | .error .notFound => findStandard v dir others
    | .error cause => (.error (.standardNotOpened path cause), [])

/-- The makefile to check, with what is to be said about the choice. -/
def select (v : FileView) (files : List String) (dir : Path) :
    Except Failure Source × List Notice :=
  match files.getLast? with
  | some "-" => (.ok .stdin, repeatedNotices files)
  | some file => (.ok (.file ⟨file⟩), repeatedNotices files)
  | none => findStandard v dir standardNames

end MakeLint.Makefile
