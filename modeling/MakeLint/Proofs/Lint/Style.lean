import MakeLint.Proofs.Finding
import MakeLint.Proofs.Lint.Findings
/-!
# What the style decides

The limit on columns is read by the width check alone, and whether white space may stand on a blank line
is asked only after the line has been counted. So a style decides on findings of two classes: it has no
part in the counts or in what else is found, and one of its settings has no part in what the other
decides.
-/

namespace MakeLint.Lint

open Line

variable {style style' : Style} {p : WarningClass → Bool}

/-! ### Blank lines -/

theorem counts_survey (style style' : Style) (inside : Bool) (ls : List Line) :
    (survey style inside ls).1 = (survey style' inside ls).1 := by
  induction ls generalizing inside with
  | nil => rfl
  | cons l ls ih =>
    cases inside with
    | true => exact ih l.isContinued
    | false => exact congrArg (·.record (classify (l :: ls)).1) (ih l.isContinued)

theorem select_survey_congr
    (h : p .nonemptyBlank = false ∨ style.onlyEmptyBlankLines = style'.onlyEmptyBlankLines)
    (inside : Bool) (ls : List Line) :
    Finding.select p (survey style inside ls).2 = Finding.select p (survey style' inside ls).2 := by
  induction ls generalizing inside with
  | nil => rfl
  | cons l ls ih =>
    have hblank (cls : LineClass) :
        Finding.select p (if cls = .blank && style.onlyEmptyBlankLines then
            [l.finding .nonemptyBlank] else []) =
          Finding.select p (if cls = .blank && style'.onlyEmptyBlankLines then
            [l.finding .nonemptyBlank] else []) := by
      rcases h with hp | hsame
      · have hnone (s : Style) : Finding.select p (if cls = .blank && s.onlyEmptyBlankLines then
            [l.finding .nonemptyBlank] else []) = [] := by
          apply Finding.select_eq_nil
          intro f hf
          rw [eq_of_mem_ite hf]
          exact hp
        rw [hnone, hnone]
      · rw [hsame]
    cases inside with
    | true =>
      simp only [survey, if_true, Finding.select_append]
      rw [ih]
    | false =>
      simp only [survey, Bool.false_eq_true, if_false, Finding.select_append]
      rw [ih, hblank]

/-- Where white space may stand on blank lines, it is not found there. -/
theorem cls_ne_nonemptyBlank_of_mem_survey (h : style.onlyEmptyBlankLines = false) {inside : Bool}
    {ls : List Line} {f : Finding} (hf : f ∈ (survey style inside ls).2) :
    f.defect.cls ≠ .nonemptyBlank := by
  induction ls generalizing inside with
  | nil => cases hf
  | cons l ls ih =>
    have hrest (hf : f ∈ (if l.isContinued && l.data.contains Byte.hash then
          [l.finding .continuedComment] else []) ++ (survey style l.isContinued ls).2) :
        f.defect.cls ≠ .nonemptyBlank := by
      rcases List.mem_append.mp hf with hf | hf
      · rw [eq_of_mem_ite hf]
        exact WarningClass.noConfusion
      · exact ih hf
    cases inside with
    | true => exact hrest hf
    | false =>
      simp only [survey, Bool.false_eq_true, if_false, h, Bool.and_false, List.append_nil,
        List.append_assoc] at hf
      rcases List.mem_append.mp hf with hf | hf
      · exact (mem_classify hf).cls_ne (by decide)
      · exact hrest hf

/-! ### Wide lines -/

theorem select_lineFindings_congr
    (h : p .longLine = false ∨ style.maxLineLength = style'.maxLineLength) (ls : List Line) :
    Finding.select p (lineFindings style ls) = Finding.select p (lineFindings style' ls) := by
  have hwidth (l : Line) : Finding.select p (l.widthFindings style) =
      Finding.select p (l.widthFindings style') := by
    rcases h with hp | hsame
    · have hnone (s : Style) : Finding.select p (l.widthFindings s) = [] := by
        apply Finding.select_eq_nil
        intro f hf
        obtain ⟨_, _, _, rfl⟩ := mem_widthFindings hf
        exact hp
      rw [hnone, hnone]
    · rw [widthFindings, widthFindings, hsame]
  have hline (l : Line) :
      Finding.select p (l.encodingFindings ++ l.repair.widthFindings style) =
        Finding.select p (l.encodingFindings ++ l.repair.widthFindings style') := by
    rw [Finding.select_append, Finding.select_append, hwidth]
  rw [lineFindings, lineFindings, Finding.select, Finding.select, List.filter_flatMap,
    List.filter_flatMap]
  exact congrArg (List.flatMap · ls) (funext hline)

/-! ### Sources -/

theorem report_source (name : String) (style style' : Style) (bytes : Bytes) :
    (source name style bytes).1 = (source name style' bytes).1 :=
  congrArg (Report.mk name _ _) (counts_survey style style' false _)

/-- What is found in a source changes with the style only in the class that a changed setting decides
on. -/
theorem select_source_congr
    (hwide : p .longLine = false ∨ style.maxLineLength = style'.maxLineLength)
    (hblank : p .nonemptyBlank = false ∨ style.onlyEmptyBlankLines = style'.onlyEmptyBlankLines)
    (name : String) (bytes : Bytes) :
    Finding.select p (source name style bytes).2 = Finding.select p (source name style' bytes).2 := by
  simp only [source, lines, Finding.select_append]
  rw [select_lineFindings_congr hwide, select_survey_congr hblank]

theorem cls_ne_nonemptyBlank_of_mem_source (h : style.onlyEmptyBlankLines = false) {name : String}
    {bytes : Bytes} {f : Finding} (hf : f ∈ (source name style bytes).2) :
    f.defect.cls ≠ .nonemptyBlank := by
  rcases List.mem_append.mp hf with hf | hf
  · rw [cls_framingFindings hf]
    exact WarningClass.noConfusion
  · rcases List.mem_append.mp hf with hf | hf
    · rcases List.mem_append.mp hf with hf | hf
      · exact (mem_lineFindings hf).cls_ne (by decide)
      · rcases mem_continuationFindings hf with hat | hspans
        · exact hat.cls_ne (by decide)
        · exact hspans.cls_ne WarningClass.noConfusion
    · exact cls_ne_nonemptyBlank_of_mem_survey h hf

end MakeLint.Lint
