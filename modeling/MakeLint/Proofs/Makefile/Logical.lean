import MakeLint.Proofs.Finding
import MakeLint.Proofs.Lint.Logical
import MakeLint.Proofs.Makefile.Linting
/-!
# Logical lines of a makefile

The physical lines of a makefile fall into logical lines, and each belongs to just one of them. The
classes that are reported count them, and what is found of comments that are continued and of white
space in blank lines can be read off the lines as they were loaded.
-/

namespace MakeLint

open Line

/-- Findings of a defect without notes are shown as their warnings and no more. -/
theorem Registry.records_of_notes_eq_nil {d : Defect} (h : d.notes = []) (r : Registry)
    (places : List Nat) (loc : Nat → Location) :
    r.records (places.map fun i => ⟨d, loc i⟩) =
      if r.action d.cls = .ignore then []
      else places.map fun i => r.shown (Finding.warning ⟨d, loc i⟩) := by
  have hcls : ∀ f ∈ places.map fun i => (⟨d, loc i⟩ : Finding), f.defect.cls = d.cls := by
    intro f hf
    obtain ⟨i, -, rfl⟩ := List.mem_map.mp hf
    rfl
  have hnotices : (places.map fun i => (⟨d, loc i⟩ : Finding)).flatMap Finding.notices =
      places.map fun i => Finding.warning ⟨d, loc i⟩ := by
    rw [List.flatMap_map, ← List.flatMap_pure_eq_map]
    simp only [Finding.notices, h]
    rfl
  rw [records_of_cls hcls, hnotices, List.map_map]
  rfl

namespace Makefile

/-- The records of a class that only logical lines are found to be of. -/
theorem records_of_readingClasses {cls : WarningClass} (h : cls ∈ readingClasses) (r : Registry)
    (name : String) (style : Style) (bytes : Bytes) :
    (lintBytes name style bytes { registry := r }).2.records.toList.filter (·.cls = cls) =
      r.records (Finding.select (· = cls)
        (Lint.survey style false (Lint.finalLines (ofBytes name 0 bytes))).2) := by
  rw [records_lintBytes_new, ← Lint.select_source h, ← Registry.records_select]

/-- Every line of a makefile belongs to one logical line, and the classes that are reported count the
lines that end one. Each comment that is continued is found at its line, in order, and where white
space is not wanted in blank lines each blank logical line is found at the line that starts it. -/
theorem lintBytes_logical (r : Registry) (name : String) (style : Style) (bytes : Bytes) :
    let linted := lintBytes name style bytes { registry := r }
    let ls := ofBytes name 0 bytes
    let final := Lint.finalLines ls
    let shown (d : Defect) (i : Nat) :=
      r.shown (Finding.warning ⟨d, { path := name, line := i + 1 }⟩)
    let blanks := (List.range ls.length).filter fun i =>
      ¬ Line.Joined ls i ∧ Lint.classAt final i = .blank
    linted.1.classes = (Lint.walk style final).1 ∧
      (∃ earlier : List Diagnostic, (∀ d ∈ earlier, d.cls ∉ readingClasses) ∧
        linted.2.records.toList = earlier ++ r.records (Lint.walk style final).2) ∧
      linted.1.classes.sum =
        (List.range ls.length).countP (fun i => i + 1 = ls.length ∨ ¬ Continues ls i) ∧
      (∀ k < ls.length, ∃! i, ¬ Line.Joined ls i ∧ i ≤ k ∧ ∀ j < k, i ≤ j → Continues ls j) ∧
      linted.2.records.toList.filter (·.cls = .commentContinuation) =
        (if r.action .commentContinuation = .ignore then [] else
          ((List.range ls.length).filter fun i =>
            i + 1 < ls.length ∧ Continues ls i ∧ Lint.HashAt ls i).map (shown .continuedComment)) ∧
      linted.2.records.toList.filter (·.cls = .nonemptyBlank) =
        (if r.action .nonemptyBlank = .ignore ∨ style.onlyEmptyBlankLines = false then [] else
          blanks.map (shown .nonemptyBlank)) ∧
      blanks.length = linted.1.classes.blank := by
  intro linted ls final shown blanks
  have hmarked : OnlyLastMarked ls := Lint.onlyLastMarked_ofBytes name 0 bytes
  have hplaced : Placed final name := Lint.placed_finalLines name bytes
  have hlength : final.length = ls.length := Lint.length_finalLines ls
  have hclasses : linted.1.classes = .ofClasses ((Lint.starts final).map (Lint.classAt final)) :=
    congrArg Prod.fst (Lint.survey_eq hplaced style)
  have hblanks : (Lint.starts final).filter (Lint.classAt final · = .blank) = blanks :=
    Lint.filter_starts_finalLines hmarked _
  refine ⟨?_, ?_, ?_, ?_, ?_, ?_, ?_⟩
  · rw [Lint.walk_eq]
    rfl
  · obtain ⟨earlier, hearlier, hsource⟩ := Lint.source_eq_append_survey name style bytes
    refine ⟨r.records earlier, ?_, ?_⟩
    · intro d hd
      obtain ⟨f, hf, hcls, -⟩ := Registry.exists_of_mem_records hd
      rw [hcls]
      exact hearlier f hf
    · rw [Lint.walk_eq, ← Registry.records_append, ← hsource]
      exact records_lintBytes_new r name style bytes
  · rw [hclasses, ClassCounts.sum_ofClasses, List.length_map,
      Lint.length_starts_finalLines hmarked]
  · intro k hk
    exact Lint.existsUnique_start hmarked hk
  · rw [records_of_readingClasses (by decide), Lint.select_survey_commentContinuation hplaced,
      hlength, Lint.filter_hidden_finalLines hmarked, Registry.records_of_notes_eq_nil rfl]
    rfl
  · rw [records_of_readingClasses (by decide), Lint.select_survey_nonemptyBlank hplaced, hblanks]
    cases style.onlyEmptyBlankLines with
    | false => simp [Registry.records]
    | true =>
      rw [if_pos rfl, Registry.records_of_notes_eq_nil rfl]
      simp only [reduceCtorEq, or_false]
      rfl
  · rw [← hblanks, hclasses, ClassCounts.blank_ofClasses, List.count, List.countP_map,
      List.countP_eq_length_filter]
    simp only [Function.comp_def, beq_eq_decide]

end Makefile

end MakeLint
