import MakeLint.Output.Summary
import MakeLint.Proofs.Sink
/-!
# What a summary says of warnings

A summary looks at the severity to tell whether there were warnings, and so does the exit status; the
number of warnings is counted from the records. The two never disagree, since a sink keeps its severity
beside its records notice by notice, and only warnings carry one.
-/

namespace MakeLint

namespace Paint

theorem wrap_text_inj (p : Paint) (tag s t : String) :
    p.wrap tag (.text s) = p.wrap tag (.text t) ↔ s = t := by
  unfold wrap
  split <;> simp

theorem success_ne_warn (p : Paint) {s t : String} (h : s ≠ t) :
    p.success (.text s) ≠ p.warn (.text t) := by
  unfold success warn wrap
  split
  · simp
  · simpa using h

end Paint

namespace Output

theorem labelled_inj (p : Paint) (label label' : String) (body body' : Styled) :
    labelled p label body = labelled p label' body' ↔ label = label' ∧ body = body' := by
  have hparts : labelled p label body = labelled p label' body' ↔
      p.label (.text label) = p.label (.text label') ∧ body = body' := by
    simp [labelled, HAppend.hAppend, Append.append]
  rw [hparts]
  exact and_congr_left' (p.wrap_text_inj _ _ _)

theorem header_ne_labelled (p : Paint) (file label : String) (body : Styled) :
    p.header (p.separator ++ .text file) ≠ labelled p label body := by
  unfold Paint.header Paint.separator Paint.wrap labelled
  split <;> simp [HAppend.hAppend, Append.append]

/-- The line of a summary with the result holds the verdict. -/
theorem result_mem_fileSummary_iff (p : Paint) (r : FileResult) (body : Styled) :
    .console (labelled p "Result:" body) ∈ fileSummary p r ↔ body = verdict p r := by
  have hheader := (header_ne_labelled p (" " ++ r.report.file) "Result:" body).symm
  simp [fileSummary, hheader, labelled_inj]

/-- A count of warnings reads differently, whatever the count is. -/
theorem verdict_eq_iff (p : Paint) (r : FileResult) :
    p.success (.text "no warnings") = verdict p r ↔ r.severity = none := by
  unfold verdict
  cases r.severity with
  | none => simp
  | some s =>
    refine iff_of_false (p.success_ne_warn ?_) (by simp)
    intro h
    have hlength := congrArg String.length h
    have hshort : "no warnings".length = 11 := by decide
    have hlong : " warning(s), highest severity ".length = 30 := by decide
    simp only [String.length_append] at hlength
    omega

theorem warningCount_eq_zero_iff (r : FileResult) :
    warningCount r = 0 ↔ ∀ d ∈ r.diagnostics, d.kind ≠ .warn := by
  simp [warningCount, List.countP_eq_zero, Diagnostic.isWarning]

end Output

namespace Sink

open Output

/-- After any notices a sink holds one record of each that is not ignored, and its severity, the exit
status and the summary can be told from the records; one notice more adds to them and takes nothing
back. -/
theorem kept_addAll (r : Registry) (notices : List Notice) (next : Notice) (report : Report)
    (p : Paint) :
    let s := ({ registry := r } : Sink).addAll notices
    let result := FileResult.ofSink report s
    s.records.toList <+: (s.add next).records.toList ∧
      s.severity ≤ (s.add next).severity ∧
      s.severity = (s.records.toList.filterMap Diagnostic.severity).max? ∧
      (s.severity = none ↔ ∀ d ∈ s.records.toList, d.severity = none) ∧
      List.Forall₂ r.Kept (notices.filter fun n => r.action n.cls ≠ .ignore) s.records.toList ∧
      (∀ d ∈ s.records.toList,
        r.action d.cls ≠ .ignore ∧ (d.kind = .warn ↔ d.severity.isSome = true)) ∧
      (result.exitStatus = 0 ↔ ∀ d ∈ s.records.toList, d.kind ≠ .warn) ∧
      (.console (labelled p "Result:" (p.success (.text "no warnings"))) ∈ fileSummary p result ↔
        warningCount result = 0) := by
  intro s result
  have hconsistent : s.Consistent := (consistent_empty r).addAll notices
  have hclean : s.severity = none ↔ ∀ d ∈ s.records.toList, d.kind ≠ .warn :=
    severity_addAll_eq_none_iff r notices
  refine ⟨?_, severity_le_add s next, hconsistent, hconsistent.severity_eq_none_iff, ?_, ?_, ?_, ?_⟩
  · rw [records_add]
    exact List.prefix_append _ _
  · unfold s
    rw [records_addAll_new]
    exact r.forall₂_kept notices
  · intro d hd
    obtain ⟨n, hn⟩ := exists_kept_of_mem hd
    exact ⟨hn.shown, hn.warns⟩
  · exact (Severity.exitStatus_eq_zero_iff s.severity).trans hclean
  · rw [result_mem_fileSummary_iff, verdict_eq_iff, warningCount_eq_zero_iff]
    exact hclean

end Sink

end MakeLint
