import MakeLint.Proofs.Finding
import MakeLint.Proofs.Lint.Repaired
import MakeLint.Proofs.Makefile.Linting
/-!
# Repaired makefiles

The linter says of a makefile that it has repaired what it said of the makefile itself, except that it
has no more repairs to report. The findings of either are told apart by their classes: repairs are of
the classes of text and of encoding, and nothing else is.
-/

namespace MakeLint

namespace Lint

variable {name path : String} {style : Style} {nestLevel : Nat} {bytes : Bytes} {f : Finding}

theorem cls_ne_text_of_mem_lines {ls : List Line} (h : f ∈ (lines style ls).2) :
    f.defect.cls ≠ .text := by
  rcases mem_lines h with h | h
  · exact h.cls_ne (by decide)
  · exact h.cls_ne (by decide)

/-- What is found in a repaired source is an overlong line, or was found before. -/
theorem mem_source_repaired (h : f ∈ (source name style (repaired path nestLevel bytes)).2) :
    f.defect = .overlongLine ∨
      f ∈ (lines style (Line.ofBytes name 0 bytes)).2 ∧ f.defect.cls ≠ .encoding := by
  rw [source_repaired] at h
  rcases List.mem_append.mp h with h | h
  · obtain ⟨l, -, rfl⟩ := List.mem_map.mp h
    exact .inl rfl
  · obtain ⟨hf, hcls⟩ := List.mem_filter.mp h
    exact .inr ⟨hf, of_decide_eq_true hcls⟩

theorem defect_ne_of_mem_source_repaired
    (h : f ∈ (source name style (repaired path nestLevel bytes)).2) :
    f.defect ≠ .nulByte ∧ f.defect ≠ .missingNewline ∧ f.defect.cls ≠ .encoding := by
  rcases mem_source_repaired h with hdefect | ⟨hlines, hencoding⟩
  · rw [hdefect]
    decide
  · have htext := cls_ne_text_of_mem_lines hlines
    refine ⟨?_, ?_, hencoding⟩
    · intro hdefect
      exact htext (by rw [hdefect]; rfl)
    · intro hdefect
      exact htext (by rw [hdefect]; rfl)

/-- Overlong lines are all that is found in the text of a repaired source. -/
theorem select_text_source_repaired (name path : String) (style : Style) (nestLevel : Nat)
    (bytes : Bytes) :
    Finding.select (· = .text) (source name style (repaired path nestLevel bytes)).2 =
      ((Line.ofBytes name 0 (repaired path nestLevel bytes)).filter Line.isOverlong).map
        (·.finding .overlongLine) := by
  have hoverlong (ls : List Line) : Finding.select (· = .text) (ls.map (·.finding .overlongLine)) =
      ls.map (·.finding .overlongLine) := by
    apply Finding.select_eq_self
    intro f hf
    obtain ⟨l, -, rfl⟩ := List.mem_map.mp hf
    rfl
  have hlines : Finding.select (· = .text) (Finding.select beyondEncoding
      (lines style (Line.ofBytes name 0 bytes)).2) = [] := by
    apply Finding.select_eq_nil
    intro f hf
    exact decide_eq_false (cls_ne_text_of_mem_lines (List.mem_filter.mp hf).1)
  rw [source_repaired, Finding.select_append, hoverlong, hlines, List.append_nil]

/-- Every class but those that repairs are reported in. -/
def beyondRepairs (cls : WarningClass) : Bool :=
  cls ≠ .text && cls ≠ .encoding

theorem select_beyondRepairs_source (name : String) (style : Style) (bytes : Bytes) :
    Finding.select beyondRepairs (source name style bytes).2 =
      Finding.select beyondRepairs (lines style (Line.ofBytes name 0 bytes)).2 := by
  have hframing : Finding.select beyondRepairs
      (Line.framingFindings name bytes (Line.ofBytes name 0 bytes)) = [] := by
    apply Finding.select_eq_nil
    intro f hf
    rw [Line.cls_framingFindings hf]
    rfl
  rw [source, Finding.select_append, hframing, List.nil_append]

theorem select_beyondRepairs_source_repaired (name path : String) (style : Style)
    (nestLevel : Nat) (bytes : Bytes) :
    Finding.select beyondRepairs (source name style (repaired path nestLevel bytes)).2 =
      Finding.select beyondRepairs (source name style bytes).2 := by
  have hnarrower : ∀ cls, beyondRepairs cls = true → beyondEncoding cls = true := by
    intro cls hcls
    exact (Bool.and_eq_true_iff.mp hcls).2
  rw [select_beyondRepairs_source, ofBytes_repaired, lines_repair, Finding.select_select hnarrower,
    select_beyondRepairs_source]

/-- The lines and their classes are counted in the repaired source as they were before. -/
theorem counts_repaired (name path : String) (style : Style) (nestLevel : Nat) (bytes : Bytes) :
    (source name style (repaired path nestLevel bytes)).1.lines = (source name style bytes).1.lines ∧
      (source name style (repaired path nestLevel bytes)).1.classes =
        (source name style bytes).1.classes := by
  simp only [source, ofBytes_repaired, lines_repair, List.length_map, and_self]

end Lint

/-- A repaired makefile needs no more repair, and all else that is found in it was found before. -/
theorem Makefile.lintBytes_repaired (r : Registry) (name path : String) (style : Style)
    (nestLevel : Nat) (bytes : Bytes) :
    let fixed := Lint.repaired path nestLevel bytes
    let before := lintBytes name style bytes { registry := r }
    let after := lintBytes name style fixed { registry := r }
    after.1.lines = before.1.lines ∧ after.1.classes = before.1.classes ∧
      (∀ f ∈ (Lint.source name style fixed).2, f.defect ≠ .nulByte ∧ f.defect ≠ .missingNewline) ∧
      (∀ d ∈ after.2.records.toList, d.cls ≠ .encoding) ∧
      after.2.records.toList.filter (fun d => d.cls = .text) =
        r.records (((Line.ofBytes name 0 fixed).filter Line.isOverlong).map
          (·.finding .overlongLine)) ∧
      after.2.records.toList.filter (fun d => d.cls ≠ .text && d.cls ≠ .encoding) =
        before.2.records.toList.filter (fun d => d.cls ≠ .text && d.cls ≠ .encoding) ∧
      Lint.repaired path nestLevel fixed = fixed := by
  intro fixed before after
  obtain ⟨hlines, hclasses⟩ := Lint.counts_repaired name path style nestLevel bytes
  have hafter : after.2.records.toList = r.records (Lint.source name style fixed).2 := by
    unfold after
    exact records_lintBytes_new r name style fixed
  have hbefore : before.2.records.toList = r.records (Lint.source name style bytes).2 := by
    unfold before
    exact records_lintBytes_new r name style bytes
  have hfixed : Lint.repaired path nestLevel fixed = fixed :=
    Lint.repaired_repaired path nestLevel bytes
  refine ⟨hlines, hclasses, ?_, ?_, ?_, ?_, hfixed⟩
  · intro f hf
    obtain ⟨hnul, hnewline, -⟩ := Lint.defect_ne_of_mem_source_repaired hf
    exact ⟨hnul, hnewline⟩
  · intro d hd
    rw [hafter] at hd
    obtain ⟨f, hf, hcls, -⟩ := Registry.exists_of_mem_records hd
    rw [hcls]
    exact (Lint.defect_ne_of_mem_source_repaired hf).2.2
  · rw [hafter, Registry.records_select r (· = .text)]
    exact congrArg r.records (Lint.select_text_source_repaired name path style nestLevel bytes)
  · have hselect (findings : List Finding) :
        (r.records findings).filter (fun d => d.cls ≠ .text && d.cls ≠ .encoding) =
          r.records (Finding.select Lint.beyondRepairs findings) :=
      r.records_select Lint.beyondRepairs findings
    have hfound := Lint.select_beyondRepairs_source_repaired name path style nestLevel bytes
    rw [hafter, hbefore, hselect, hselect, hfound]

end MakeLint
