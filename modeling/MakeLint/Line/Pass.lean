import MakeLint.Lint
/-!
# Passes

The checks as steps on loaded lines, each on one line or on all of them, so that they may be run in
any order and any number of times. A pass on a line that does not exist does nothing. What the passes
find is added to one sink, and each pass may be made under a style of its own.
-/

namespace MakeLint

inductive Pass where
  | repair (index : Nat)
  | width (index : Nat)
  | join (index : Nat)
  | continuations
  | classify (index : Nat)
  | lint
  deriving DecidableEq

namespace Pass

/-- The lines after a pass. -/
def lines : Pass → List Line → List Line
  | repair i, ls => ls.modify i Line.repair
  | width _, ls => ls
  | join i, ls => ls.modify i Line.join
  | continuations, ls => Line.joinAll ls
  | classify _, ls => ls
  | lint, ls => Lint.finalLines ls

/-- What a pass finds in the lines. -/
def findings (style : Style) : Pass → List Line → List Finding
  | repair i, ls => (ls[i]?.map Line.encodingFindings).getD []
  | width i, ls => (ls[i]?.map (Line.widthFindings style)).getD []
  | join _, _ => []
  | continuations, ls => Line.continuationFindings ls
  | classify i, ls => (Line.classify (ls.drop i)).2
  | lint, ls => (Lint.lines style ls).2

end Pass

/-- The lines of a source, and what has been found in them so far. -/
structure Progress where
  lines : List Line
  sink : Sink

namespace Progress

/-- A source that has been loaded. -/
def load (r : Registry) (path : String) (nestLevel : Nat) (bytes : Bytes) : Progress :=
  let lines := Line.ofBytes path nestLevel bytes
  ⟨lines, Sink.addFindings { registry := r } (Line.framingFindings path bytes lines)⟩

def step (s : Progress) (todo : Style × Pass) : Progress :=
  ⟨todo.2.lines s.lines, s.sink.addFindings (todo.2.findings todo.1 s.lines)⟩

def run (s : Progress) (todo : List (Style × Pass)) : Progress :=
  todo.foldl step s

end Progress

end MakeLint
