import MakeLint.Proofs.Output.Document
import MakeLint.Proofs.Run.Results
/-!
# What a run shows

A run over several makefiles says on standard error what has gone wrong with which of them, and then
shows the results it has, in the order of the makefiles: the diagnostics of all of them on standard
error too, or everything in one document. What else it has to say goes to the console, so that nothing
stands among these lines.
-/

namespace MakeLint

namespace Message

end Message

namespace Run

variable {c : Config} {p : Paint} {results : List FileResult}

end Run

end MakeLint
