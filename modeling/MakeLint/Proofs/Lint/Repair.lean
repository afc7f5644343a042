import MakeLint.Lint
import MakeLint.Proofs.Finding
import MakeLint.Proofs.Line.Alike
import MakeLint.Proofs.Line.Width
/-!
# What the repair leaves alone

The encoding of a line is repaired before any other check reads it. The repair replaces bytes outside
ASCII by bytes outside ASCII of the same width, so every other check would come to the same verdict on
the line as it was read. Only the tip on wide lines depends on the length in bytes, which the repair
changes.
-/

namespace MakeLint

/-! ### Verdicts -/

/-- A diagnostic that is neither about the encoding nor a tip. -/
def Diagnostic.isVerdict (d : Diagnostic) : Bool :=
  d.cls ≠ .encoding && d.kind ≠ .tip

/-- The verdicts that a registry makes of findings. -/
def Registry.verdicts (r : Registry) (findings : List Finding) : List Diagnostic :=
  (r.records findings).filter Diagnostic.isVerdict

namespace Registry

theorem verdicts_append (r : Registry) (as bs : List Finding) :
    r.verdicts (as ++ bs) = r.verdicts as ++ r.verdicts bs := by
  rw [verdicts, records_append, List.filter_append]
  rfl

theorem verdicts_encodingFindings (r : Registry) (l : Line) :
    r.verdicts l.encodingFindings = [] := by
  rw [verdicts, List.filter_eq_nil_iff]
  intro d hd
  obtain ⟨f, hf, hcls, -⟩ := exists_of_mem_records hd
  rw [List.eq_of_mem_replicate hf] at hcls
  simp [Diagnostic.isVerdict, hcls, Line.finding, Defect.cls]

/-- Whether a tip follows a warning is not part of the verdict. -/
theorem verdicts_wideLine (r : Registry) (l : Line) (columns limit : Nat) (tipped : Bool) :
    r.verdicts [l.finding (.wideLine columns limit tipped)] =
      r.verdicts [l.finding (.wideLine columns limit false)] := by
  cases tipped with
  | false => rfl
  | true =>
    have htip : ([Notice.longLineTip .longLine].filterMap r.diagnostic?).filter
        Diagnostic.isVerdict = [] := by
      rw [List.filter_eq_nil_iff]
      intro d hd
      obtain ⟨-, rfl⟩ : r.action .longLine ≠ .ignore ∧ _ = d := by
        simpa [Notice.longLineTip, diagnostic?] using hd
      simp [Diagnostic.isVerdict]
    change (([(l.finding (.wideLine columns limit false)).warning] ++
      [Notice.longLineTip .longLine]).filterMap r.diagnostic?).filter Diagnostic.isVerdict = _
    rw [List.filterMap_append, List.filter_append, htip, List.append_nil]
    rfl

theorem verdicts_widthFindings (r : Registry) (style : Style) (l : Line) :
    r.verdicts (l.repair.widthFindings style) = r.verdicts (l.widthFindings style) := by
  rw [Line.widthFindings_eq, Line.widthFindings_eq, Line.columns_content_repair]
  split
  · rw [verdicts_wideLine, verdicts_wideLine r l]
    rfl
  · rfl

theorem verdicts_lineFindings (r : Registry) (style : Style) (ls : List Line) :
    r.verdicts (Lint.lineFindings style ls) =
      r.verdicts (ls.flatMap (Line.widthFindings style)) := by
  induction ls with
  | nil => rfl
  | cons l ls ih =>
    rw [Lint.lineFindings, List.flatMap_cons, ← Lint.lineFindings, List.flatMap_cons,
      verdicts_append, verdicts_append, verdicts_append, verdicts_encodingFindings, List.nil_append,
      verdicts_widthFindings, ih]

end Registry

/-! ### Lines as they were read -/

namespace Lint

/-- All checks but that of the encoding, on lines that are not repaired. -/
def linesAsRead (style : Style) (lines : List Line) : ClassCounts × List Finding :=
  let (counts, found) := survey style false (Line.joinAll lines)
  (counts, lines.flatMap (Line.widthFindings style) ++ Line.continuationFindings lines ++ found)

theorem alike_repair (ls : List Line) :
    List.Forall₂ (Line.AlikeLoaded 0) ls (ls.map Line.repair) := by
  rw [List.forall₂_map_right_iff, List.forall₂_same]
  exact fun l _ => ⟨⟨Utf8.alike_repair l.data, rfl, rfl, rfl⟩, fun _ => rfl⟩

theorem verdicts_lines (r : Registry) (style : Style) (ls : List Line) :
    r.verdicts (lines style ls).2 = r.verdicts (linesAsRead style ls).2 := by
  have hsurvey := Line.survey_alike style (Line.joinAll_alike (alike_repair ls)) false
  have hcontinued := Line.continuationFindings_alike (alike_repair ls)
  rw [Line.shiftResult_zero] at hsurvey
  rw [Finding.map_shift_zero] at hcontinued
  simp only [lines, linesAsRead, hsurvey, hcontinued, Registry.verdicts_append,
    Registry.verdicts_lineFindings]

/-- The repair of the encoding changes no class, no joiner and no verdict. -/
theorem lines_linesAsRead (s : Sink) (style : Style) (ls : List Line) :
    (lines style ls).1 = (linesAsRead style ls).1 ∧
      (finalLines ls).map Line.joiner = (Line.joinAll ls).map Line.joiner ∧
      (s.addFindings (lines style ls).2).records.toList.filter Diagnostic.isVerdict =
        (s.addFindings (linesAsRead style ls).2).records.toList.filter Diagnostic.isVerdict := by
  have hjoined := Line.joinAll_alike (alike_repair ls)
  have hsurvey := Line.survey_alike style hjoined false
  refine ⟨by simp only [lines, linesAsRead, hsurvey, Line.shiftResult_zero],
    Line.joiners_alike hjoined, ?_⟩
  rw [Sink.records_addFindings, Sink.records_addFindings, List.filter_append, List.filter_append]
  exact congrArg _ (verdicts_lines s.registry style ls)

end Lint

end MakeLint
