import MakeLint.Proofs.Lint.Logical
import MakeLint.Proofs.Makefile.Append
/-!
# Lines of only a backslash

Once its backslash has been taken off, a line that held nothing else has no bytes. Where such a line
starts a logical line it is taken for an empty line, whatever it goes on to, while a line of white space
has the class of the text that it goes on to. So a space before the backslash changes what is counted.
-/

namespace MakeLint

open Bytes

theorem ClassCounts.record_injective (n : ClassCounts) : Function.Injective n.record := by
  intro c d h
  cases c <;> cases d <;> simp [record] at h ⊢

namespace Line

theorem runClass_ne_empty (ls : List Line) (i : Nat) : runClass ls i ≠ .empty := by
  unfold runClass
  cases textLine? ls i with
  | none => simp
  | some k =>
    dsimp only
    split_ifs <;> simp

/-- A line of this white space and a backslash, once it is joined to what follows. -/
def blankHead (name : String) (white : Bytes) (last : Bool) : Line :=
  ⟨white, name, 1, last, 0, if last then .none else .space⟩

theorem isContinued_blankHead (name : String) (white : Bytes) (last : Bool) :
    (blankHead name white last).isContinued = !last := by
  cases last <;> rfl

/-- A space has the class of what it goes on to, and without that it is blank. -/
theorem fst_classify_blankHead_space (name : String) {last : Bool} {rest : List Line}
    (h : last = true → rest = []) :
    (classify (blankHead name [Byte.space] last :: rest)).1 = runClass rest 0 := by
  cases last with
  | true =>
    obtain rfl := h rfl
    rfl
  | false =>
    change (classifyRun false rest).1 = _
    exact fst_classifyRun_drop false List.drop_zero

end Line

namespace Lint

open Line

variable (name : String) (style : Style) (b : Bytes)

/-- The lines behind the first, as the checks leave them. -/
def behind : List Line :=
  finalLines (numbered name 0 2 (withoutNul b).segments)

/-- Their classes are what they would be without the first. -/
theorem runClass_behind :
    runClass (behind name b) 0 = runClass (finalLines (ofBytes name 0 b)) 0 := by
  have hmoved := numbered_moved 1 name 0 1 (withoutNul b).segments
  have hrun := classifyRun_alike (joinAll_alike (map_repair_moved hmoved)) false
  rw [← fst_classifyRun_drop false List.drop_zero, ← fst_classifyRun_drop false List.drop_zero,
    behind, finalLines, hrun]
  rfl

theorem finalLines_blankHead {white : Bytes} (h : white = [] ∨ white = [Byte.space]) :
    finalLines (ofBytes name 0 (white ++ [Byte.backslash, Byte.newline] ++ b)) =
      blankHead name white (withoutNul b).segments.isEmpty :: behind name b := by
  have hsplit : white ++ [Byte.backslash, Byte.newline] ++ b =
      (white ++ [Byte.backslash]) ++ Byte.newline :: b := by simp
  have hline : ∀ last,
      (Line.mk (white ++ [Byte.backslash]) name 1 last 0 .none).repair.join.settle =
        blankHead name white last := by
    rcases h with rfl | rfl <;> intro last <;> cases last <;> rfl
  have hbytes : Byte.nul ∉ white ++ [Byte.backslash] ∧ Byte.newline ∉ white ++ [Byte.backslash] := by
    rcases h with rfl | rfl <;> decide
  rw [hsplit, ofBytes_cons_line name 0 hbytes.1 hbytes.2, ← hline]
  rfl

/-- The white space matters to the class of the first logical line, and to nothing else that is
counted. -/
theorem classes_blankHead {white : Bytes} (h : white = [] ∨ white = [Byte.space]) :
    (source name style (white ++ [Byte.backslash, Byte.newline] ++ b)).1.classes =
      (survey style (!(withoutNul b).segments.isEmpty) (behind name b)).1.record
        (if white = [] then .empty else runClass (finalLines (ofBytes name 0 b)) 0) := by
  have hlast : (withoutNul b).segments.isEmpty = true → behind name b = [] := by
    intro hempty
    rw [behind, List.isEmpty_iff.mp hempty]
    rfl
  have hclass : (classify (blankHead name white (withoutNul b).segments.isEmpty ::
      behind name b)).1 =
        if white = [] then .empty else runClass (finalLines (ofBytes name 0 b)) 0 := by
    rcases h with rfl | rfl
    · rfl
    · rw [fst_classify_blankHead_space name hlast, runClass_behind]
      rfl
  change (survey style false (finalLines (ofBytes name 0 _))).1 = _
  rw [finalLines_blankHead name b h, survey_false_cons, hclass]
  change ((survey style (blankHead name white _).isContinued (behind name b)).1).record _ = _
  rw [isContinued_blankHead]

end Lint

namespace Makefile

/-- A line of only a backslash that starts a logical line makes it an empty one, so it is never counted
under the class of the text that it goes on to. With a space before the backslash it is. -/
theorem classes_of_backslash_line (r : Registry) (name : String) (style : Style) {a : Bytes}
    (ha : Terminated a) (hlast : ∀ line ∈ (Bytes.lines a).getLast?, ¬ EndsInBackslash line)
    (b : Bytes) :
    let linted (bytes : Bytes) := lintBytes name style bytes { registry := r }
    let only := (linted (a ++ ([Byte.backslash, Byte.newline] ++ b))).1.classes
    let spaced := (linted (a ++ ([Byte.space, Byte.backslash, Byte.newline] ++ b))).1.classes
    let cls := Line.runClass (Lint.finalLines (Line.ofBytes name 0 b)) 0
    only ≠ spaced ∧ ∃ others : ClassCounts, only = others.record .empty ∧
      spaced = others.record cls := by
  intro linted only spaced cls
  have hadded {white : Bytes} (h : white = [] ∨ white = [Byte.space]) :
      (linted (a ++ (white ++ [Byte.backslash, Byte.newline] ++ b))).1.classes =
        ((linted a).1.classes + (Lint.survey style (!(Line.withoutNul b).segments.isEmpty)
          (Lint.behind name b)).1).record (if white = [] then .empty else cls) := by
    obtain ⟨hreport, -⟩ := Lint.source_append name style
      (b := white ++ [Byte.backslash, Byte.newline] ++ b) ha hlast
    change (Lint.source name style _).1.classes = _
    rw [hreport, Lint.classes_blankHead name style b h, ← ClassCounts.add_record,
      ← ClassCounts.record_add]
    rfl
  have honly := hadded (.inl rfl)
  have hspaced := hadded (.inr rfl)
  refine ⟨fun hsame => ?_, _, honly, hspaced⟩
  have hempty := ClassCounts.record_injective _ (honly.symm.trans (hsame.trans hspaced))
  exact Line.runClass_ne_empty _ 0 hempty.symm

/-- The line goes on to another of white space, and that one to a comment. -/
theorem classes_of_backslash_line_comment :
    let a : Bytes := [0x78, 0x3a, 0x0a]
    let b : Bytes := [0x20, 0x5c, 0x0a, 0x23, 0x20, 0x79, 0x0a]
    let linted (bytes : Bytes) := lintBytes "Makefile" {} bytes { registry := .default }
    Terminated a ∧ (∀ line ∈ (Bytes.lines a).getLast?, ¬ EndsInBackslash line) ∧
      ∃ others : ClassCounts,
        (linted (a ++ ([0x5c, 0x0a] ++ b))).1.classes = others.record .empty ∧
          (linted (a ++ ([0x20, 0x5c, 0x0a] ++ b))).1.classes = others.record .comment := by
  intro a b linted
  have ha : Terminated a := .inr rfl
  have hlast : ∀ line ∈ (Bytes.lines a).getLast?, ¬ EndsInBackslash line := by decide
  have hcomment : Line.runClass (Lint.finalLines (Line.ofBytes "Makefile" 0 b)) 0 = .comment := by
    decide
  obtain ⟨-, others, honly, hspaced⟩ :=
    classes_of_backslash_line .default "Makefile" {} ha hlast b
  rw [hcomment] at hspaced
  exact ⟨ha, hlast, others, honly, hspaced⟩

/-- A line of only a backslash goes on to a command line, and the command line is not counted. -/
theorem classes_of_backslash_line_commandLine :
    let bytes : Bytes := [0x5c, 0x0a, 0x09, 0x63, 0x6d, 0x64, 0x0a]
    let ls := Line.ofBytes "Makefile" 0 bytes
    let joined := Lint.finalLines ls
    let linted (bytes : Bytes) := lintBytes "Makefile" {} bytes { registry := .default }
    ls[0]?.map Line.data = some [Byte.backslash] ∧ ¬ Line.Joined ls 0 ∧
      Line.textLine? joined 0 = some 1 ∧ Line.runClass joined 0 = .commandLine ∧
      (linted bytes).1.classes = { empty := 1 } ∧
      (linted (Byte.space :: bytes)).1.classes = { commandLine := 1 } := by
  decide

end Makefile

end MakeLint
