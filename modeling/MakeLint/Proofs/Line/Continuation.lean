import MakeLint.Line.Continuation
import MakeLint.Line.Width
/-!
# Joined lines

What is left of a line once its backslash has been taken off, and whether it continues: a line
continues exactly if it ended in a backslash and is not the last of its source.
-/

namespace MakeLint

namespace Bytes

def EndsInBackslash (bytes : Bytes) : Prop :=
  bytes.getLast? = some Byte.backslash

instance (bytes : Bytes) : Decidable (EndsInBackslash bytes) :=
  inferInstanceAs (Decidable (_ = _))

theorem dropBackslash_of_ends {bytes : Bytes} (h : EndsInBackslash bytes) :
    bytes.dropBackslash = bytes.dropLast :=
  if_pos h

theorem dropBackslash_of_not_ends {bytes : Bytes} (h : ¬ EndsInBackslash bytes) :
    bytes.dropBackslash = bytes :=
  if_neg h

theorem EndsInBackslash.eq_append {bytes : Bytes} (h : EndsInBackslash bytes) :
    bytes = bytes.dropBackslash ++ [Byte.backslash] := by
  obtain ⟨xs, rfl⟩ := List.getLast?_eq_some_iff.mp h
  rw [dropBackslash_of_ends h, List.dropLast_concat]

end Bytes

namespace Line

open Bytes

theorem data_join (l : Line) : l.join.data = l.data.dropBackslash := by
  unfold join Bytes.dropBackslash
  split <;> rfl

theorem isContinued_join (l : Line) : l.join.isContinued = decide (EndsInBackslash l.data) := by
  unfold join EndsInBackslash
  split
  · next h =>
    simp only [isContinued, h]
    split <;> rfl
  · next h => simp [isContinued, h]

theorem eof_join (l : Line) : l.join.eof = l.eof := by
  unfold join
  split <;> rfl

theorem isContinued_settle (l : Line) : l.settle.isContinued = (l.isContinued && !l.eof) := by
  unfold settle
  split
  · next h => simp [isContinued, h]
  · next h => simp [h]

theorem data_settle (l : Line) : l.settle.data = l.data := by
  unfold settle
  split <;> rfl

/-- A line that does not continue is as it would be at the end of its source. -/
theorem settle_eq_self {l : Line} (h : l.eof = true → l.isContinued = false) : l.settle = l := by
  unfold settle
  split
  · next heof =>
    have hnone : l.joiner = .none := by simpa [isContinued] using h heof
    rw [← hnone]
  · rfl

theorem anchorAfter_isSome (before : Option Anchor) (l : Line) :
    (anchorAfter before l).isSome = l.settle.isContinued := by
  unfold anchorAfter
  split
  · next h =>
    rw [h]
    cases before with
    | none => rfl
    | some anchor => dsimp only; split <;> rfl
  · next h => simpa using h

end Line

end MakeLint
