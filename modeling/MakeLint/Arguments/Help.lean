import MakeLint.Arguments.Option
/-!
# Help

The texts that answer a command line which asks for help or cannot be read.
-/

namespace MakeLint.Arguments

def versionText : String :=
  "makel 0.1.0\n"

def helpText : String :=
  "Makefile linter: checks line structure, encoding and portability against POSIX make

Usage: makel [OPTIONS] [DIR]... [COMMAND]

Commands:
  config   Manage configuration: init [--global], show, path
  classes  List every warning class with its effective action
  help     Print this message

Arguments:
  [DIR]...  Directories to search for makefiles (requires --recursive)

Options:
  -f, --file <MAKEFILE>            Makefile to check, '-' for stdin (default: ./makefile or ./Makefile)
  -l, --max-line-length <N>        Maximum line length in display columns [default: 120]
      --allow-blank-lines          Do not report lines that are blank but not empty
  -w, --warning <CLASS[=ACTION]>   Set the action of a warning class: CLASS or CLASS=ignore|inform|style|warn
      --config <FILE>              Path to config file (default: search for .makelrc)
      --no-config                  Ignore config files
  -r, --recursive                  Lint every makefile found under the given directories
      --glob <GLOB>                Glob pattern to match makefiles when recursing (comma-separated)
      --no-gitignore               Do not respect .gitignore when recursing
      --max-depth <N>              Maximum directory depth (0 = unlimited) [default: 0]
  -v, --verbose                    Print a summary for each makefile
      --color <MODE>               Color output: auto, always, or never [default: auto]
      --json                       Output results as JSON for programmatic processing
      --watch                      Watch the makefile for changes and lint it again on every save
      --debounce-ms <N>            Debounce interval in milliseconds (for --watch mode) [default: 500]
  -h, --help                       Print help
  -V, --version                    Print version

EXIT CODES:
  0  No warnings
  1  Style
  2  Confusing
  3  Warning
  4  Unspecified behaviour
  5  Non-conforming
  6  Undefined behaviour
  7  Critical
  8  Error (I/O failure, no makefile found, invalid arguments)
"

def UsageError.description : UsageError → String
  | unknownArgument => "unexpected argument"
  | invalidValue => "missing or invalid value for an option"
  | valueValidation => "invalid value for an option"
  | argumentConflict => "arguments cannot be used together"
  | missingRequiredArgument => "a required argument was not provided"
  | tooManyValues => "unexpected value for a flag"
  | invalidSubcommand => "unrecognized subcommand"
  | displayHelp | displayVersion | displayHelpOnMissingArgumentOrSubcommand => ""

/-- The answer on standard output, and the one on standard error. -/
def UsageError.answer : UsageError → String × String
  | displayHelp => (helpText, "")
  | displayVersion => (versionText, "")
  | displayHelpOnMissingArgumentOrSubcommand => ("", helpText)
  | e => ("", "error: " ++ e.description ++ "\n\nFor more information, try '--help'.\n")

end MakeLint.Arguments
