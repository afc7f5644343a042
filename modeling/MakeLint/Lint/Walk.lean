import MakeLint.Lint
/-!
# The walk over the lines

How the logical lines of a source are found by index. The line at the index starts a logical line and
is classified, then the lines that it is continued on are stepped over, and the next logical line starts
behind the one that ends the run. Both loops move the same index.
-/

namespace MakeLint.Lint

/-- Steps over continued lines from an index on, up to the line that is not continued. -/
def stepOver (ls : List Line) (i : Nat) : Nat × List Finding :=
  if h : i < ls.length then
    if ls[i].isContinued then
      let (last, later) := stepOver ls (i + 1)
      let hidden :=
        if ls[i].data.contains Byte.hash then [ls[i].finding .continuedComment] else []
      (last, hidden ++ later)
    else
      (i, [])
  else
    (i, [])
termination_by ls.length - i

theorem le_stepOver (ls : List Line) (i : Nat) : i ≤ (stepOver ls i).1 := by
  fun_induction stepOver ls i with
  | case1 i _ _ last later hlater _ ih =>
    rw [hlater] at ih
    exact Nat.le_of_succ_le ih
  | case2 => exact Nat.le_refl _
  | case3 => exact Nat.le_refl _

/-- Counts and checks the logical lines from an index on, on top of what has been counted. -/
def walkFrom (style : Style) (ls : List Line) (counts : ClassCounts) (i : Nat) :
    ClassCounts × List Finding :=
  if h : i < ls.length then
    let (cls, found) := Line.classify (ls.drop i)
    let blank :=
      if cls = .blank && style.onlyEmptyBlankLines then [ls[i].finding .nonemptyBlank] else []
    let run := stepOver ls i
    let (counts, later) := walkFrom style ls (counts.record cls) (run.1 + 1)
    (counts, found ++ blank ++ run.2 ++ later)
  else
    (counts, [])
termination_by ls.length - i
decreasing_by
  have hle := le_stepOver ls i
  omega

def walk (style : Style) (ls : List Line) : ClassCounts × List Finding :=
  walkFrom style ls {} 0

end MakeLint.Lint
