import MakeLint.Proofs.Lint.Style
import MakeLint.Proofs.Makefile.Tips
import Mathlib.Order.MinMax
/-!
# Makefiles under two styles

A makefile is counted in the same way under every style, and a style decides only on the records of its
own classes. A higher limit keeps the warnings of the lines that are wider than it and adds none, and
allowing white space on blank lines takes away what would be said of them and nothing else.
-/

namespace MakeLint

/-! ### Severities among records -/

/-- The worst of some severities is no worse than the worst of more. -/
theorem Severity.max?_le_of_subset {xs ys : List Severity} (h : xs ⊆ ys) : xs.max? ≤ ys.max? := by
  cases hx : xs.max? with
  | none => exact Option.none_le
  | some a =>
    have ha : a ∈ ys := h (List.max?_mem hx)
    cases hy : ys.max? with
    | none =>
      rw [List.max?_eq_none_iff] at hy
      rw [hy] at ha
      cases ha
    | some b => exact Option.some_le_some.mpr ((List.max?_eq_some_iff.mp hy).2 a ha)

theorem Defect.not_warnsOf_of_mem_notes {d : Defect} {n : Notice} (h : n ∈ d.notes) (s : Severity) :
    ¬ n.WarnsOf s := by
  have hall : ∀ n ∈ d.notes, (∃ cls message, n = .info cls message) ∨
      ∃ cls message, n = .tip cls message := by
    cases d with
    | wideLine _ _ tipped => cases tipped <;> simp [notes, Notice.longLineTip]
    | _ => simp [notes, Notice.longLineTip]
  rintro ⟨_, _, _, rfl⟩
  simpa using hall _ h

/-- The severities among the records of findings are those of the findings whose classes count. -/
theorem Registry.mem_severities_iff {r : Registry} {findings : List Finding} {s : Severity} :
    s ∈ (r.records findings).filterMap Diagnostic.severity ↔
      ∃ f ∈ findings, f.defect.severity = s ∧ r.Counts f.defect.cls := by
  rw [List.mem_filterMap]
  constructor
  · rintro ⟨d, hd, hs⟩
    obtain ⟨n, hn, hd⟩ := List.mem_filterMap.mp hd
    obtain ⟨f, hf, hn⟩ := List.mem_flatMap.mp hn
    obtain ⟨hwarns, hcounts⟩ := ((kept_of_diagnostic? hd).severity s).mp hs
    rcases List.mem_cons.mp hn with rfl | hn
    · obtain ⟨_, _, _, hsame⟩ := hwarns
      exact ⟨f, hf, (Notice.warn.inj hsame).2.1, hcounts⟩
    · exact absurd hwarns (Defect.not_warnsOf_of_mem_notes hn s)
  · rintro ⟨f, hf, rfl, hcounts⟩
    have hshown : r.action f.warning.cls ≠ .ignore := by
      rcases hcounts with h | h <;> simp [Finding.warning, Notice.cls, h]
    have hd := diagnostic?_eq_shown hshown
    have hs := ((kept_of_diagnostic? hd).severity f.defect.severity).mpr
      ⟨⟨_, _, _, rfl⟩, hcounts⟩
    have hn : f.warning ∈ findings.flatMap Finding.notices :=
      List.mem_flatMap.mpr ⟨f, hf, List.mem_cons_self⟩
    exact ⟨_, List.mem_filterMap.mpr ⟨_, hn, hd⟩, hs⟩

/-! ### Wide lines -/

/-- The line that a diagnostic warns of for its width. -/
def Diagnostic.wideLine? (d : Diagnostic) : Option Nat :=
  if d.cls = .longLine then d.location.map Location.line else none

/-- The lines that are warned of for their width, in order. -/
def Makefile.wideLines (records : List Diagnostic) : List Nat :=
  records.filterMap Diagnostic.wideLine?

/-- The columns of the line with this number, its backslash not counted. -/
def Line.columnsAt (ls : List Line) (n : Nat) : Nat :=
  ls[n - 1]?.elim 0 fun l => Columns.ofBytes l.content

namespace Makefile

open Line

variable {r : Registry} {style style' : Style} {name : String} {bytes : Bytes}

theorem wideLines_append (as bs : List Diagnostic) :
    wideLines (as ++ bs) = wideLines as ++ wideLines bs :=
  List.filterMap_append

/-- Only records of one class warn of wide lines. -/
theorem wideLines_filter (records : List Diagnostic) :
    wideLines (records.filter fun d => decide (d.cls = .longLine)) = wideLines records := by
  rw [wideLines, List.filterMap_filter]
  apply List.filterMap_congr
  intro d _
  by_cases hcls : d.cls = .longLine
  · simp [hcls]
  · simp [hcls, Diagnostic.wideLine?]

theorem wideLine?_shown (r : Registry) {n : Notice} (hcls : n.cls = .longLine)
    (hshown : r.action .longLine ≠ .ignore) :
    (r.shown n).wideLine? = n.location.map Location.line := by
  have hkept := Registry.kept_of_diagnostic? (Registry.diagnostic?_eq_shown (hcls ▸ hshown))
  rw [Diagnostic.wideLine?, if_pos (hkept.cls.trans hcls), hkept.location]

/-- The warning of a wide line has its location, and a tip has none. -/
theorem wideLines_notices (hshown : r.action .longLine ≠ .ignore) {f : Finding}
    (hcls : f.defect.cls = .longLine) :
    wideLines (f.notices.map r.shown) = [f.location.line] := by
  have hnotes : wideLines (f.defect.notes.map r.shown) = [] := by
    rw [wideLines, List.filterMap_eq_nil_iff]
    intro d hd
    obtain ⟨n, hn, rfl⟩ := List.mem_map.mp hd
    rw [wideLine?_shown r ((Defect.cls_of_mem_notes hn).trans hcls) hshown,
      Defect.location_of_mem_notes hn]
    rfl
  have hwarning : (r.shown f.warning).wideLine? = some f.location.line :=
    wideLine?_shown r hcls hshown
  rw [Finding.notices, List.map_cons, wideLines, List.filterMap_cons_some hwarning, ← wideLines,
    hnotes]

theorem wideLines_records (r : Registry) {findings : List Finding}
    (hcls : ∀ f ∈ findings, f.defect.cls = .longLine) :
    wideLines (r.records findings) =
      if r.action .longLine = .ignore then [] else findings.map (·.location.line) := by
  rw [Registry.records_of_cls hcls]
  split
  · rfl
  · next hshown =>
    induction findings with
    | nil => rfl
    | cons f findings ih =>
      rw [List.flatMap_cons, List.map_append, wideLines_append,
        wideLines_notices hshown (hcls f List.mem_cons_self),
        ih fun g hg => hcls g (List.mem_cons_of_mem f hg)]
      rfl

theorem location_widthFindings (style : Style) (ls : List Line) :
    (ls.flatMap fun l => l.repair.widthFindings style).map (·.location.line) =
      (ls.filter (isWide style)).map Line.number := by
  induction ls with
  | nil => rfl
  | cons l ls ih =>
    rw [List.flatMap_cons, List.map_append, ih, widthFindings_eq, columns_content_repair,
      List.filter_cons, isWide]
    by_cases hwide : style.maxLineLength < Columns.ofBytes l.content
    · simp [hwide, Line.finding, Line.location, repair]
    · simp [hwide]

theorem select_source_longLine (name : String) (style : Style) (bytes : Bytes) :
    Finding.select (· = .longLine) (Lint.source name style bytes).2 =
      (ofBytes name 0 bytes).flatMap fun l => l.repair.widthFindings style := by
  obtain ⟨later, hlater, hsource⟩ := Lint.source_eq_append_lineFindings name style bytes
  have hframing : Finding.select (· = .longLine)
      (framingFindings name bytes (ofBytes name 0 bytes)) = [] := by
    apply Finding.select_eq_nil
    intro f hf
    rw [cls_framingFindings hf]
    rfl
  have hrest : Finding.select (· = .longLine) later = [] := by
    apply Finding.select_eq_nil
    intro f hf
    apply decide_eq_false
    intro hcls
    exact hlater f hf (by simp [hcls])
  have hline (l : Line) : Finding.select (· = .longLine)
      (l.encodingFindings ++ l.repair.widthFindings style) = l.repair.widthFindings style := by
    have hencoding : Finding.select (· = .longLine) l.encodingFindings = [] := by
      apply Finding.select_eq_nil
      intro f hf
      rw [mem_encodingFindings hf]
      rfl
    have hwidth : Finding.select (· = .longLine) (l.repair.widthFindings style) =
        l.repair.widthFindings style := by
      apply Finding.select_eq_self
      intro f hf
      obtain ⟨_, _, _, rfl⟩ := mem_widthFindings hf
      rfl
    rw [Finding.select_append, hencoding, hwidth, List.nil_append]
  rw [hsource, Finding.select_append, Finding.select_append, hframing, hrest, List.nil_append,
    List.append_nil, Lint.lineFindings, Finding.select, List.filter_flatMap]
  exact congrArg (List.flatMap · _) (funext hline)

/-- The lines that are warned of for their width are those that are wide. -/
theorem wideLines_source (r : Registry) (name : String) (style : Style) (bytes : Bytes) :
    wideLines (r.records (Lint.source name style bytes).2) =
      if r.action .longLine = .ignore then []
      else ((ofBytes name 0 bytes).filter (isWide style)).map Line.number := by
  have hcls : ∀ f ∈ (ofBytes name 0 bytes).flatMap fun l => l.repair.widthFindings style,
      f.defect.cls = .longLine := by
    intro f hf
    obtain ⟨l, -, hf⟩ := List.mem_flatMap.mp hf
    obtain ⟨_, _, _, rfl⟩ := mem_widthFindings hf
    rfl
  rw [← wideLines_filter, Registry.records_select r (· = .longLine), select_source_longLine,
    wideLines_records r hcls, location_widthFindings]

theorem columnsAt_number {l : Line} (h : l ∈ ofBytes name 0 bytes) :
    columnsAt (ofBytes name 0 bytes) l.number = Columns.ofBytes l.content := by
  obtain ⟨i, hi⟩ := List.mem_iff_getElem?.mp h
  obtain ⟨-, -, -, hlocation⟩ := exists_physical hi
  have hnumber : l.number = i + 1 := congrArg Location.line hlocation
  rw [columnsAt, hnumber, Nat.add_sub_cancel, hi]
  rfl

/-- Of the lines that are warned of, a higher limit keeps those that are wider than it. -/
theorem wideLines_of_le (r : Registry) (name : String) (bytes : Bytes)
    (h : style.maxLineLength ≤ style'.maxLineLength) :
    wideLines (r.records (Lint.source name style' bytes).2) =
      (wideLines (r.records (Lint.source name style bytes).2)).filter fun n =>
        style'.maxLineLength < columnsAt (ofBytes name 0 bytes) n := by
  rw [wideLines_source, wideLines_source]
  split
  · rfl
  · rw [List.filter_map, List.filter_filter]
    refine congrArg (List.map Line.number) (List.filter_congr fun l hl => ?_)
    rw [Function.comp_apply, columnsAt_number hl, isWide, isWide, ← Bool.decide_and,
      decide_eq_decide]
    omega

/-! ### Severities -/

theorem severity_of_cls_longLine {d : Defect} (h : d.cls = .longLine) : d.severity = .style := by
  cases d <;> cases h
  rfl

/-- A higher limit adds no severity. -/
theorem severities_subset (r : Registry) (name : String) (bytes : Bytes)
    (hblank : style'.onlyEmptyBlankLines = style.onlyEmptyBlankLines)
    (hlimit : style.maxLineLength ≤ style'.maxLineLength) :
    (r.records (Lint.source name style' bytes).2).filterMap Diagnostic.severity ⊆
      (r.records (Lint.source name style bytes).2).filterMap Diagnostic.severity := by
  intro s hs
  rw [Registry.mem_severities_iff] at hs ⊢
  obtain ⟨f, hf, hseverity, hcounts⟩ := hs
  by_cases hcls : f.defect.cls = .longLine
  · have hselected : f ∈ Finding.select (· = .longLine) (Lint.source name style' bytes).2 :=
      List.mem_filter.mpr ⟨hf, decide_eq_true hcls⟩
    rw [select_source_longLine] at hselected
    obtain ⟨l, hl, hfound⟩ := List.mem_flatMap.mp hselected
    have hwide' : l.isWide style' = true := (Lint.exists_mem_widthFindings_iff style' l).mp ⟨f, hfound⟩
    have hwide : l.isWide style = true := by
      rw [isWide, decide_eq_true_iff] at hwide' ⊢
      omega
    obtain ⟨g, hg, hgcls, -⟩ := (Lint.exists_longLine_iff hl).mpr hwide
    refine ⟨g, hg, ?_, hgcls ▸ hcls ▸ hcounts⟩
    rw [← hseverity, severity_of_cls_longLine hgcls, severity_of_cls_longLine hcls]
  · have hselected : f ∈ Finding.select (· ≠ .longLine) (Lint.source name style' bytes).2 :=
      List.mem_filter.mpr ⟨hf, decide_eq_true hcls⟩
    rw [Lint.select_source_congr (.inl rfl) (.inr hblank)] at hselected
    exact ⟨f, (List.mem_filter.mp hselected).1, hseverity, hcounts⟩

/-! ### Two runs -/

/-- The style has no part in the counts and in the records of other classes. A higher limit leaves the
warnings of the lines that are wider than it, and the run is no worse for it; where white space may
stand on blank lines, the records are those of the run where it may not, but for those about it. -/
theorem lintBytes_style (r : Registry) (name : String) (bytes : Bytes) (style style' : Style) :
    let run := lintBytes name style bytes { registry := r }
    let run' := lintBytes name style' bytes { registry := r }
    let records := run.2.records.toList
    let records' := run'.2.records.toList
    run'.1 = run.1 ∧
      records'.filter (·.cls ∉ [.longLine, .nonemptyBlank]) =
        records.filter (·.cls ∉ [.longLine, .nonemptyBlank]) ∧
      (style'.onlyEmptyBlankLines = style.onlyEmptyBlankLines →
        style.maxLineLength ≤ style'.maxLineLength →
        wideLines records' = (wideLines records).filter (fun n =>
            style'.maxLineLength < columnsAt (ofBytes name 0 bytes) n) ∧
          records'.filter (·.cls ≠ .longLine) = records.filter (·.cls ≠ .longLine) ∧
          run'.2.severity ≤ run.2.severity) ∧
      (style'.maxLineLength = style.maxLineLength → style'.onlyEmptyBlankLines = false →
        records' = records.filter (·.cls ≠ .nonemptyBlank)) := by
  intro run run' records records'
  have hrecords : records = r.records (Lint.source name style bytes).2 :=
    records_lintBytes_new r name style bytes
  have hrecords' : records' = r.records (Lint.source name style' bytes).2 :=
    records_lintBytes_new r name style' bytes
  refine ⟨Lint.report_source name style' style bytes, ?_, ?_, ?_⟩
  · rw [hrecords, hrecords', Registry.records_select r (· ∉ [.longLine, .nonemptyBlank]),
      Registry.records_select r (· ∉ [.longLine, .nonemptyBlank]),
      Lint.select_source_congr (.inl rfl) (.inl rfl)]
  · intro hblank hlimit
    refine ⟨?_, ?_, ?_⟩
    · rw [hrecords, hrecords', wideLines_of_le r name bytes hlimit]
    · rw [hrecords, hrecords', Registry.records_select r (· ≠ .longLine),
        Registry.records_select r (· ≠ .longLine),
        Lint.select_source_congr (.inl rfl) (.inr hblank)]
    · have hseverity : run.2.severity = (records.filterMap Diagnostic.severity).max? :=
        consistent_lintBytes name style bytes (Sink.consistent_empty r)
      have hseverity' : run'.2.severity = (records'.filterMap Diagnostic.severity).max? :=
        consistent_lintBytes name style' bytes (Sink.consistent_empty r)
      rw [hseverity, hseverity', hrecords, hrecords']
      exact Severity.max?_le_of_subset (severities_subset r name bytes hblank hlimit)
  · intro hlimit hallowed
    have hnone : Finding.select (· ≠ .nonemptyBlank) (Lint.source name style' bytes).2 =
        (Lint.source name style' bytes).2 := by
      apply Finding.select_eq_self
      intro f hf
      exact decide_eq_true (Lint.cls_ne_nonemptyBlank_of_mem_source hallowed hf)
    rw [hrecords, hrecords', Registry.records_select r (· ≠ .nonemptyBlank), ← hnone,
      Lint.select_source_congr (.inr hlimit) (.inl rfl)]

/-- Two lines are over the lower limit and one is over the higher, and of the blank line nothing is said
where it is allowed. -/
theorem lintBytes_style_higher :
    let bytes := Bytes.ofString "abcd\nabcdef\n  \n"
    let recordsOf (style : Style) :=
      (lintBytes "Makefile" style bytes { registry := .default }).2.records.toList
    wideLines (recordsOf { maxLineLength := 3 }) = [1, 2] ∧
      wideLines (recordsOf { maxLineLength := 5 }) = [2] ∧
      recordsOf { maxLineLength := 3, onlyEmptyBlankLines := false } =
        (recordsOf { maxLineLength := 3 }).filter (·.cls ≠ .nonemptyBlank) := by
  intro bytes recordsOf
  have hlow : wideLines (recordsOf { maxLineLength := 3 }) = [1, 2] := by decide +kernel
  have hhigh := (lintBytes_style .default "Makefile" bytes { maxLineLength := 3 }
    { maxLineLength := 5 }).2.2.1 rfl (by decide)
  have hallowed := (lintBytes_style .default "Makefile" bytes { maxLineLength := 3 }
    { maxLineLength := 3, onlyEmptyBlankLines := false }).2.2.2 rfl rfl
  refine ⟨hlow, ?_, hallowed⟩
  rw [hhigh.1, hlow]
  decide +kernel

end Makefile

end MakeLint
