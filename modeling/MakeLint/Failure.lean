import MakeLint.Config
import MakeLint.FileTree
import MakeLint.Glob
/-!
# Failures

What ends a run, or the linting of one file, with an error. The wording names what was being done and
then the cause.
-/

namespace MakeLint

inductive Failure where
  | misuse (cause : Config.Misuse)
  | badGlobs (cause : Glob.ListError)
  | configNotFound (path : Path)
  | configUnreadable (path : Path) (cause : IoError)
  | configUnparsable (path : Path)
  | configUnknownClass (name : String) (path : Path)
  | configExists (path : Path)
  | configNotWritten (path : Path) (cause : IoError)
  | noHome
  | noMakefile
  | standardNotOpened (path : Path) (cause : IoError)
  | makefileNotOpened (path : Path) (cause : IoError)
  | makefileNotRead (name : String) (cause : IoError)
  | filesFailed (paths : List Path)
  | watchedNotFound (path : Path)
  | watchedDirectory (path : Path)
  deriving DecidableEq

def Failure.message : Failure → String
  | misuse cause => cause.message
  | badGlobs cause => cause.message
  | configNotFound path => "Config file not found: " ++ path.text
  | configUnreadable path cause =>
    "Failed to read config file: " ++ path.text ++ ": " ++ cause.message
  | configUnparsable path => "Failed to parse config file: " ++ path.text
  | configUnknownClass name path =>
    "Unknown warning class '" ++ name ++ "' in config file: " ++ path.text
  | configExists path => "Config file already exists: " ++ path.text
  | configNotWritten path cause =>
    "Failed to create config file: " ++ path.text ++ ": " ++ cause.message
  | noHome => "Could not determine home directory"
  | noMakefile =>
    "couldn't find any makefile to use, portable alternatives are ./makefile and ./Makefile"
  | standardNotOpened path cause =>
    "found standard makefile to use, but failed to open: " ++ path.text ++ ": " ++ cause.message
  | makefileNotOpened path cause =>
    "Failed to open makefile: " ++ path.text ++ ": " ++ cause.message
  | makefileNotRead name cause => "Failed to read makefile: " ++ name ++ ": " ++ cause.message
  | filesFailed paths =>
    toString paths.length ++ " file(s) had errors: " ++
      String.intercalate ", " (paths.map Path.text)
  | watchedNotFound path => "File not found: " ++ path.text
  | watchedDirectory path => "--watch requires a file, not a directory: " ++ path.text

/-- The exit status of a run that fails, whatever the cause. -/
def Failure.exitStatus : Nat := 8

end MakeLint
