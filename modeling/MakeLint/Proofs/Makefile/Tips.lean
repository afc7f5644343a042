import MakeLint.Proofs.Line.Physical
import MakeLint.Proofs.Line.Width
import MakeLint.Proofs.Lint.Findings
import MakeLint.Proofs.Makefile.Linting
/-!
# Tips on long lines

A tip goes with a line that is too long in bytes, and one with a line that is too wide, unless the line
has had the first. Whether it has is told from the length of the line at two times: before the repair
of its encoding, and after. A line that grows over the limit in between gets neither.
-/

namespace MakeLint

/-! ### Tips among notices -/

def Notice.isTip : Notice → Bool
  | tip _ _ => true
  | _ => false

theorem Registry.isTip_of_diagnostic? {r : Registry} {n : Notice} {d : Diagnostic}
    (h : r.diagnostic? n = some d) : n.isTip = decide (d.kind = .tip) := by
  cases n with
  | warn cls severity location message =>
    rw [diagnostic?] at h
    cases haction : r.action cls <;> rw [haction] at h <;> cases h <;> rfl
  | info cls message | tip cls message =>
    obtain ⟨-, rfl⟩ : r.action cls ≠ .ignore ∧ _ = d := by simpa [diagnostic?] using h
    rfl

/-- The tips among diagnostics are what is kept of the tips among notices. -/
theorem Registry.filter_tip (r : Registry) (notices : List Notice) :
    (notices.filterMap r.diagnostic?).filter (·.kind = .tip) =
      (notices.filter Notice.isTip).filterMap r.diagnostic? := by
  induction notices with
  | nil => rfl
  | cons n notices ih =>
    cases hn : r.diagnostic? n with
    | none =>
      rw [List.filterMap_cons_none hn, ih, List.filter_cons]
      split
      · rw [List.filterMap_cons_none hn]
      · rfl
    | some d =>
      rw [List.filterMap_cons_some hn, List.filter_cons, List.filter_cons, ih,
        isTip_of_diagnostic? hn]
      split
      · rw [List.filterMap_cons_some hn]
      · rfl

namespace Finding

/-- The tips that go with findings. -/
def tips (findings : List Finding) : List Notice :=
  findings.flatMap fun f => f.defect.notes.filter Notice.isTip

variable {findings : List Finding}

theorem filter_isTip_notices (findings : List Finding) :
    (findings.flatMap notices).filter Notice.isTip = tips findings := by
  rw [List.filter_flatMap]
  rfl

theorem tips_append (as bs : List Finding) : tips (as ++ bs) = tips as ++ tips bs :=
  List.flatMap_append

theorem tips_eq_nil (h : ∀ f ∈ findings, f.defect.notes.filter Notice.isTip = []) :
    tips findings = [] :=
  List.flatMap_eq_nil_iff.mpr h

/-- Only lines that are too long or too wide are given tips. -/
theorem tips_eq_nil_of_cls (h : ∀ f ∈ findings, f.defect.cls ∉ [.text, .longLine]) :
    tips findings = [] := by
  apply tips_eq_nil
  intro f hf
  have hcls := h f hf
  cases hdefect : f.defect <;> rw [hdefect] at hcls <;> first | rfl | simp [Defect.cls] at hcls

end Finding

theorem Registry.tips_records (r : Registry) (findings : List Finding) :
    (r.records findings).filter (·.kind = .tip) = (Finding.tips findings).filterMap r.diagnostic? := by
  rw [records, filter_tip, Finding.filter_isTip_notices]

/-! ### Long lines and wide lines -/

namespace Line

/-- The line takes more columns than the style allows. -/
def isWide (style : Style) (l : Line) : Bool :=
  style.maxLineLength < Columns.ofBytes l.content

/-- The line is wide, and the repair of its encoding makes it too long. -/
def outgrows (style : Style) (l : Line) : Bool :=
  l.isWide style && !l.isOverlong && l.repair.isOverlong

/-- No repair makes a line shorter. -/
theorem isOverlong_repair {l : Line} (h : l.isOverlong = true) : l.repair.isOverlong = true := by
  rw [isOverlong, decide_eq_true_iff] at h ⊢
  have hlength : l.data.length ≤ l.repair.data.length := Utf8.length_le_length_repair l.data
  omega

theorem countP_isOverlong_add (style : Style) (ls : List Line) :
    ls.countP isOverlong + ls.countP (fun l => l.isWide style && !l.repair.isOverlong) +
      ls.countP (outgrows style) = ls.countP fun l => l.isOverlong || l.isWide style := by
  induction ls with
  | nil => rfl
  | cons l ls ih =>
    simp only [List.countP_cons, outgrows]
    by_cases hlong : l.isOverlong = true
    · have hrepaired := isOverlong_repair hlong
      simp only [hlong, hrepaired, Bool.not_true, Bool.and_false, Bool.false_and, Bool.true_or,
        if_true, Bool.false_eq_true, if_false]
      omega
    · rw [Bool.not_eq_true] at hlong
      by_cases hwide : l.isWide style = true <;>
        by_cases hrepaired : l.repair.isOverlong = true <;>
          simp [hlong, hwide, hrepaired] <;> omega

theorem tips_widthFindings_repair (style : Style) (l : Line) :
    Finding.tips (l.repair.widthFindings style) =
      if l.isWide style && !l.repair.isOverlong then [.longLineTip .longLine] else [] := by
  rw [widthFindings_eq, columns_content_repair]
  by_cases hwide : style.maxLineLength < Columns.ofBytes l.content
  · have hw : l.isWide style = true := decide_eq_true hwide
    have hshort : decide (l.repair.data.length + 1 ≤ Defect.lineMax) = !l.repair.isOverlong := by
      rw [isOverlong, ← decide_not, decide_eq_decide, Nat.not_lt]
    rw [if_pos hwide, hw, hshort]
    cases !l.repair.isOverlong <;> rfl
  · have hw : l.isWide style = false := decide_eq_false hwide
    rw [if_neg hwide, hw]
    rfl

theorem tips_framingFindings (name : String) (bytes : Bytes) (ls : List Line) :
    Finding.tips (framingFindings name bytes ls) =
      List.replicate (ls.countP isOverlong) (.longLineTip .text) := by
  have hnul : Finding.tips ((nulLines 1 bytes).map
      fun n => ⟨.nulByte, { path := name, line := n }⟩) = [] := by
    apply Finding.tips_eq_nil
    intro f hf
    obtain ⟨n, -, rfl⟩ := List.mem_map.mp hf
    rfl
  have hmissing : Finding.tips (if lacksNewline bytes then
      [⟨.missingNewline, { path := name, line := ls.length }⟩] else []) = [] := by
    split <;> rfl
  have hlong : Finding.tips ((ls.filter isOverlong).map (·.finding .overlongLine)) =
      List.replicate (ls.countP isOverlong) (.longLineTip .text) := by
    rw [Finding.tips, List.flatMap_map, List.countP_eq_length_filter, ← List.map_const]
    exact List.flatMap_pure_eq_map _ _
  rw [framingFindings, Finding.tips_append, Finding.tips_append, hnul, hmissing, hlong]
  rfl

end Line

namespace Lint

open Line

theorem tips_lineFindings (style : Style) (ls : List Line) :
    Finding.tips (lineFindings style ls) =
      List.replicate (ls.countP fun l => l.isWide style && !l.repair.isOverlong)
        (.longLineTip .longLine) := by
  induction ls with
  | nil => rfl
  | cons l ls ih =>
    have hencoding : Finding.tips l.encodingFindings = [] := by
      apply Finding.tips_eq_nil
      intro f hf
      rw [mem_encodingFindings hf]
      rfl
    rw [lineFindings, List.flatMap_cons, ← lineFindings, Finding.tips_append, Finding.tips_append,
      hencoding, tips_widthFindings_repair, ih, List.countP_cons]
    split
    · rw [List.replicate_succ]
      rfl
    · rfl

/-- What is found of the length and the width of lines is found before their continuations are. -/
theorem source_eq_append_lineFindings (name : String) (style : Style) (bytes : Bytes) :
    ∃ later : List Finding, (∀ f ∈ later, f.defect.cls ∉ [.text, .encoding, .longLine]) ∧
      (source name style bytes).2 = framingFindings name bytes (ofBytes name 0 bytes) ++
        (lineFindings style (ofBytes name 0 bytes) ++ later) := by
  have hcontinuation : ∀ cls ∈ continuationClasses,
      cls ∉ [WarningClass.text, .encoding, .longLine] := by decide
  have hreading : ∀ cls ∈ readingClasses, cls ∉ [WarningClass.text, .encoding, .longLine] := by
    decide
  refine ⟨continuationFindings ((ofBytes name 0 bytes).map Line.repair) ++
    (survey style false (finalLines (ofBytes name 0 bytes))).2, ?_, ?_⟩
  · intro f hf
    rcases List.mem_append.mp hf with hf | hf
    · rcases mem_continuationFindings hf with ⟨_, -, -, hcls⟩ | hspans
      · exact hcontinuation _ hcls
      · rw [hspans.cls_eq]
        decide
    · obtain ⟨_, -, -, hcls⟩ := mem_survey hf
      exact hreading _ hcls
  · rw [← List.append_assoc (lineFindings style _)]
    rfl

/-- The tips that go with what is found in a source. -/
theorem tips_source (name : String) (style : Style) (bytes : Bytes) :
    Finding.tips (source name style bytes).2 =
      List.replicate ((ofBytes name 0 bytes).countP isOverlong) (.longLineTip .text) ++
        List.replicate
          ((ofBytes name 0 bytes).countP fun l => l.isWide style && !l.repair.isOverlong)
          (.longLineTip .longLine) := by
  obtain ⟨later, hlater, hsource⟩ := source_eq_append_lineFindings name style bytes
  have hsub : [WarningClass.text, .longLine] ⊆ [.text, .encoding, .longLine] := by decide
  have hnone : Finding.tips later = [] :=
    Finding.tips_eq_nil_of_cls fun f hf hcls => hlater f hf (hsub hcls)
  rw [hsource, Finding.tips_append, Finding.tips_append, tips_framingFindings, tips_lineFindings,
    hnone, List.append_nil]

/-- Lines of a source that stand at one place are the same. -/
theorem eq_of_location_eq {name : String} {nestLevel : Nat} {bytes : Bytes} {l m : Line}
    (hl : l ∈ ofBytes name nestLevel bytes) (hm : m ∈ ofBytes name nestLevel bytes)
    (h : l.location = m.location) : l = m := by
  obtain ⟨i, hi⟩ := List.mem_iff_getElem?.mp hl
  obtain ⟨j, hj⟩ := List.mem_iff_getElem?.mp hm
  obtain ⟨-, -, -, hli⟩ := exists_physical hi
  obtain ⟨-, -, -, hmj⟩ := exists_physical hj
  have hline : i + 1 = j + 1 := congrArg Location.line (hli.symm.trans (h.trans hmj))
  obtain rfl := Nat.succ.inj hline
  exact Option.some.inj (hi.symm.trans hj)

/-- A finding on the width of a line is there exactly if the line is wide. -/
theorem exists_mem_widthFindings_iff (style : Style) (l : Line) :
    (∃ f, f ∈ l.repair.widthFindings style) ↔ l.isWide style = true := by
  rw [widthFindings_eq, columns_content_repair, isWide, decide_eq_true_iff]
  split
  · next hwide => exact iff_of_true ⟨_, List.mem_singleton_self _⟩ hwide
  · next hwide => exact iff_of_false (by simp) hwide

/-- Lines that are wide are found, and no others. -/
theorem exists_longLine_iff {name : String} {style : Style} {bytes : Bytes} {l : Line}
    (hl : l ∈ ofBytes name 0 bytes) :
    (∃ f ∈ (source name style bytes).2, f.defect.cls = .longLine ∧ f.location = l.location) ↔
      l.isWide style = true := by
  obtain ⟨later, hlater, hsource⟩ := source_eq_append_lineFindings name style bytes
  rw [hsource, ← exists_mem_widthFindings_iff]
  constructor
  · rintro ⟨f, hf, hcls, hlocation⟩
    rcases List.mem_append.mp hf with hf | hf
    · rw [cls_framingFindings hf] at hcls
      cases hcls
    · rcases List.mem_append.mp hf with hf | hf
      · obtain ⟨m, hm, hf⟩ := List.mem_flatMap.mp hf
        rcases List.mem_append.mp hf with hf | hf
        · rw [mem_encodingFindings hf] at hcls
          cases hcls
        · have hsame : m = l := by
            obtain ⟨_, _, _, rfl⟩ := mem_widthFindings hf
            exact eq_of_location_eq hm hl hlocation
          exact ⟨f, hsame ▸ hf⟩
      · exact absurd (by simp [hcls]) (hlater f hf)
  · rintro ⟨f, hf⟩
    have hmem : f ∈ lineFindings style (ofBytes name 0 bytes) :=
      List.mem_flatMap.mpr ⟨l, hl, List.mem_append_right _ hf⟩
    obtain ⟨_, _, _, rfl⟩ := mem_widthFindings hf
    exact ⟨_, List.mem_append_right _ (List.mem_append_left _ hmem), rfl, rfl⟩

end Lint

namespace Makefile

open Line

/-- A wide line is warned of where its class is not ignored. -/
theorem warned_iff {r : Registry} (hlong : r.action .longLine ≠ .ignore) {name : String}
    {style : Style} {bytes : Bytes} {l : Line} (hl : l ∈ ofBytes name 0 bytes) :
    (∃ d ∈ (lintBytes name style bytes { registry := r }).2.records.toList,
      d.cls = .longLine ∧ d.location = some l.location) ↔ l.isWide style = true := by
  rw [records_lintBytes_new, ← Lint.exists_longLine_iff hl]
  constructor
  · rintro ⟨d, hd, hcls, hlocation⟩
    obtain ⟨f, hf, hfcls, hflocation⟩ := Registry.exists_of_mem_records hd
    exact ⟨f, hf, hfcls.symm.trans hcls, (hflocation _ hlocation).symm⟩
  · rintro ⟨f, hf, hcls, hlocation⟩
    have hshown : r.diagnostic? f.warning = some (r.shown f.warning) := by
      apply Registry.diagnostic?_eq_shown
      rw [Finding.warning, Notice.cls, hcls]
      exact hlong
    have hkept := Registry.kept_of_diagnostic? hshown
    refine ⟨_, List.mem_filterMap.mpr ⟨f.warning, ?_, hshown⟩, hkept.cls.trans hcls,
      hkept.location.trans (congrArg some hlocation)⟩
    exact List.mem_flatMap.mpr ⟨f, hf, List.mem_cons_self⟩

/-- The tips of a makefile: one for each line that is too long, and then one for each that is too wide
and is not too long once it has been repaired. -/
theorem tips_records_lintBytes {r : Registry} (htext : r.action .text ≠ .ignore)
    (hlong : r.action .longLine ≠ .ignore) (name : String) (style : Style) (bytes : Bytes) :
    (lintBytes name style bytes { registry := r }).2.records.toList.filter (·.kind = .tip) =
      List.replicate ((ofBytes name 0 bytes).countP isOverlong) (r.shown (.longLineTip .text)) ++
        List.replicate
          ((ofBytes name 0 bytes).countP fun l => l.isWide style && !l.repair.isOverlong)
          (r.shown (.longLineTip .longLine)) := by
  have htip {cls : WarningClass} (hcls : r.action cls ≠ .ignore) :
      r.diagnostic? (.longLineTip cls) = some (r.shown (.longLineTip cls)) :=
    Registry.diagnostic?_eq_shown hcls
  rw [records_lintBytes_new, Registry.tips_records, Lint.tips_source, List.filterMap_append,
    List.filterMap_replicate_of_some (htip htext), List.filterMap_replicate_of_some (htip hlong)]

/-- Where neither class is ignored, every line that is too long or too wide has one tip, except for those
that are wide and that only their repair makes too long: these have none. -/
theorem tips_lintBytes {r : Registry} (htext : r.action .text ≠ .ignore)
    (hlong : r.action .longLine ≠ .ignore) (name : String) (style : Style) (bytes : Bytes) :
    let records := (lintBytes name style bytes { registry := r }).2.records.toList
    let ls := ofBytes name 0 bytes
    let tips := records.filter (·.kind = .tip)
    (∀ l ∈ ls, (∃ d ∈ records, d.cls = .longLine ∧ d.location = some l.location) ↔
        l.isWide style = true) ∧
      tips = List.replicate (ls.countP isOverlong) (r.shown (.longLineTip .text)) ++
        List.replicate (ls.countP fun l => l.isWide style && !l.repair.isOverlong)
          (r.shown (.longLineTip .longLine)) ∧
      tips.length + ls.countP (outgrows style) =
        ls.countP (fun l => l.isOverlong || l.isWide style) ∧
      (tips.length = ls.countP (fun l => l.isOverlong || l.isWide style) ↔
        ∀ l ∈ ls, l.outgrows style = false) := by
  intro records ls tips
  have htips : tips = List.replicate (ls.countP isOverlong) (r.shown (.longLineTip .text)) ++
      List.replicate (ls.countP fun l => l.isWide style && !l.repair.isOverlong)
        (r.shown (.longLineTip .longLine)) :=
    tips_records_lintBytes htext hlong name style bytes
  have hcount : tips.length + ls.countP (outgrows style) =
      ls.countP fun l => l.isOverlong || l.isWide style := by
    rw [htips, List.length_append, List.length_replicate, List.length_replicate,
      countP_isOverlong_add]
  have hnone : ls.countP (outgrows style) = 0 ↔ ∀ l ∈ ls, l.outgrows style = false := by
    simp only [List.countP_eq_zero, Bool.not_eq_true]
  refine ⟨fun l hl => warned_iff hlong hl, htips, hcount, ?_⟩
  rw [← hnone]
  omega

/-- A byte that is no character, in a line that is wide for its style. -/
theorem tips_lintBytes_narrow :
    let bytes : Bytes := [0x61, 0xff, 0x62, 0x63, 0x0a, 0x78, 0x0a]
    Registry.default.action .text ≠ .ignore ∧ Registry.default.action .longLine ≠ .ignore ∧
      (lintBytes "Makefile" { maxLineLength := 3 } bytes
          { registry := .default }).2.records.toList.filter (·.kind = .tip) =
        [Registry.default.shown (.longLineTip .longLine)] ∧
      (ofBytes "Makefile" 0 bytes).countP
        (fun l => l.isOverlong || l.isWide { maxLineLength := 3 }) = 1 := by
  intro bytes
  have htext : Registry.default.action .text ≠ .ignore := by decide
  have hlong : Registry.default.action .longLine ≠ .ignore := by decide
  obtain ⟨-, htips, -, hall⟩ :=
    tips_lintBytes htext hlong "Makefile" { maxLineLength := 3 } bytes
  have hoverlong : (ofBytes "Makefile" 0 bytes).countP isOverlong = 0 := by decide
  have hwide : ((ofBytes "Makefile" 0 bytes).countP fun l =>
      l.isWide { maxLineLength := 3 } && !l.repair.isOverlong) = 1 := by decide
  have hshort : ∀ l ∈ ofBytes "Makefile" 0 bytes, l.outgrows { maxLineLength := 3 } = false := by
    decide
  rw [hoverlong, hwide, List.replicate_zero, List.nil_append, List.replicate_one] at htips
  refine ⟨htext, hlong, htips, ?_⟩
  rw [← hall.mpr hshort, htips]
  rfl

/-! ### A line that grows over the limit -/

theorem repair_letters (n : Nat) (rest : Bytes) :
    Utf8.repair (List.replicate n 0x61 ++ rest) = List.replicate n 0x61 ++ Utf8.repair rest := by
  induction n with
  | zero => rfl
  | succ n ih =>
    have hfirst := Utf8.repair_append_ascii [] (show 0x61 < 0x80 by decide)
      (List.replicate n 0x61 ++ rest)
    rw [ih] at hfirst
    exact hfirst

theorem columns_letters (n : Nat) (rest : Bytes) :
    Columns.ofBytes (List.replicate n 0x61 ++ rest) = n + Columns.ofBytes rest := by
  induction n with
  | zero => exact (Nat.zero_add _).symm
  | succ n ih =>
    have hletter : Columns.ofPiece (.character [0x61]) = 1 := by decide
    have hfirst := Utf8.pieces_append_ascii [] (show 0x61 < 0x80 by decide)
      (List.replicate n 0x61 ++ rest)
    rw [Columns.ofBytes] at ih
    rw [List.replicate_succ, List.cons_append, ← List.nil_append (0x61 :: _), Columns.ofBytes,
      hfirst, total_append, total_cons, hletter, ih]
    change 0 + _ = _
    omega

/-- A line of so many letters and a byte that is no character. -/
def lettersLine (n : Nat) : Line :=
  ⟨List.replicate n 0x61 ++ [0xff], "Makefile", 1, true, 0, .none⟩

theorem ofBytes_letters (n : Nat) :
    ofBytes "Makefile" 0 (List.replicate n 0x61 ++ [0xff, 0x0a]) = [lettersLine n] := by
  have hnul : Byte.nul ∉ List.replicate n 0x61 ++ [0xff] := by simp [Byte.nul]
  have hnewline : Byte.newline ∉ List.replicate n 0x61 ++ [0xff] := by simp [Byte.newline]
  have hcons := ofBytes_cons_line "Makefile" 0 hnul hnewline []
  rw [List.append_assoc] at hcons
  exact hcons

theorem isWide_letters {n : Nat} {style : Style} (h : style.maxLineLength ≤ n) :
    (lettersLine n).isWide style = true := by
  have hcontent : (lettersLine n).content = List.replicate n 0x61 ++ [0xff] := by
    apply Bytes.dropBackslash_of_not_ends
    simp [Bytes.EndsInBackslash, lettersLine, Byte.backslash]
  have hlast : Columns.ofBytes [0xff] = 1 := by decide
  rw [isWide, decide_eq_true_iff, hcontent, columns_letters, hlast]
  omega

theorem isOverlong_repair_letters {n : Nat} (h : Defect.lineMax < n + 4) :
    (lettersLine n).repair.isOverlong = true := by
  have hlast : Utf8.repair [0xff] = [0xef, 0xbf, 0xbd] := by decide
  have hlength : (lettersLine n).repair.data.length = n + 3 := by
    rw [repair, lettersLine, repair_letters, hlast, List.length_append, List.length_replicate]
    rfl
  rw [isOverlong, decide_eq_true_iff, hlength]
  omega

/-- As loaded the line is as long as a line may be, and three bytes stand for its last one once it is
repaired. It is warned of and there is no tip. -/
theorem tips_lintBytes_outgrown :
    let bytes : Bytes := List.replicate 2046 0x61 ++ [0xff, 0x0a]
    let records := (lintBytes "Makefile" {} bytes { registry := .default }).2.records.toList
    ∃ l, ofBytes "Makefile" 0 bytes = [l] ∧ l.data.length + 1 = Defect.lineMax ∧
      (∃ d ∈ records, d.cls = .longLine ∧ d.location = some l.location) ∧
      records.filter (·.kind = .tip) = [] := by
  intro bytes records
  have hlines : ofBytes "Makefile" 0 bytes = [lettersLine 2046] := ofBytes_letters 2046
  have hlength : (lettersLine 2046).data.length + 1 = Defect.lineMax := by
    rw [lettersLine, List.length_append, List.length_replicate]
    rfl
  have hwide : (lettersLine 2046).isWide {} = true := isWide_letters (by decide)
  have hrepaired : (lettersLine 2046).repair.isOverlong = true :=
    isOverlong_repair_letters (by decide)
  have hmem : lettersLine 2046 ∈ ofBytes "Makefile" 0 bytes :=
    hlines ▸ List.mem_singleton_self (lettersLine 2046)
  have hshort : (lettersLine 2046).isOverlong = false := by
    rw [isOverlong, hlength]
    rfl
  have htext : Registry.default.action .text ≠ .ignore := by decide
  have hlong : Registry.default.action .longLine ≠ .ignore := by decide
  have htips := tips_records_lintBytes htext hlong "Makefile" {} bytes
  rw [hlines, List.countP_singleton, List.countP_singleton, hshort, hrepaired, Bool.not_true,
    Bool.and_false] at htips
  exact ⟨lettersLine 2046, hlines, hlength, (warned_iff hlong hmem).mpr hwide, htips⟩

end Makefile

end MakeLint
