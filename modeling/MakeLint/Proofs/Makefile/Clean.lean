import MakeLint.Proofs.Lint.Clean
import MakeLint.Proofs.Makefile.Linting
/-!
# Clean makefiles

What a makefile must be like for the linter to have nothing to say about it, in terms of its bytes
alone. The linter reads each line as the checks before have left it, without NUL bytes, repaired and
with its backslash taken off; a clean makefile is the same before and after, so that every check may
be said of the line as it is written.
-/

namespace MakeLint

open Bytes

/-- A line in which nothing is wrong, after the line `before` or as the first. -/
structure CleanLine (style : Style) (before : Option Bytes) (line : Bytes) : Prop extends
    ContinuesCleanly before line, ReadsCleanly style before line where
  short : line.length ≤ 2047
  encoded : ∃ text, line = Utf8.encode text
  narrow : Columns.ofBytes line.dropBackslash ≤ style.maxLineLength

structure Clean (style : Style) (bytes : Bytes) : Prop where
  withoutNul : Byte.nul ∉ bytes
  terminated : Terminated bytes
  ended : ∀ line ∈ (lines bytes).getLast?, ¬ EndsInBackslash line
  lines : ∀ p ∈ withPrevious none (lines bytes), CleanLine style p.1 p.2

theorem Line.framingFindings_eq_nil_iff (path : String) (bytes : Bytes) (ls : List Line) :
    framingFindings path bytes ls = [] ↔
      Byte.nul ∉ bytes ∧ Terminated bytes ∧ ∀ l ∈ ls, l.data.length ≤ 2047 := by
  have hover : ls.filter isOverlong = [] ↔ ∀ l ∈ ls, l.data.length ≤ 2047 := by
    rw [List.filter_eq_nil_iff]
    apply forall₂_congr
    intro l _
    rw [isOverlong, decide_eq_true_iff, Defect.lineMax]
    omega
  rw [framingFindings, List.append_eq_nil_iff, List.append_eq_nil_iff, List.map_eq_nil_iff,
    List.map_eq_nil_iff, nulLines_eq_nil_iff, hover, ← lacksNewline_eq_false_iff, and_assoc]
  simp

theorem Bytes.map_snd_withPrevious (before : Option Bytes) (ls : List Bytes) :
    (withPrevious before ls).map Prod.snd = ls := by
  induction ls generalizing before with
  | nil => rfl
  | cons line ls ih => rw [withPrevious, List.map_cons, ih]

theorem Lint.source_eq_nil_iff (name : String) (style : Style) (bytes : Bytes) :
    (source name style bytes).2 = [] ↔ Clean style bytes := by
  have hpairs (P : Bytes → Prop) :
      (∀ p ∈ withPrevious none (Bytes.lines bytes), P p.2) ↔ ∀ line ∈ Bytes.lines bytes, P line := by
    conv_rhs => rw [← map_snd_withPrevious none (Bytes.lines bytes), List.forall_mem_map]
  have hloaded (hnul : Byte.nul ∉ bytes) (hterminated : Terminated bytes) :
      Line.ofBytes name 0 bytes = Line.numbered name 0 1 (Bytes.lines bytes) := by
    rw [Line.ofBytes, Line.withoutNul_eq_self hnul, hterminated.segments_eq]
  have hshort : (∀ l ∈ Line.numbered name 0 1 (Bytes.lines bytes), l.data.length ≤ 2047) ↔
      ∀ line ∈ Bytes.lines bytes, line.length ≤ 2047 := by
    conv_rhs => rw [← Line.map_data_numbered name 0 1 (Bytes.lines bytes), List.forall_mem_map]
  rw [source, List.append_eq_nil_iff, Line.framingFindings_eq_nil_iff]
  constructor
  · rintro ⟨⟨hnul, hterminated, hlength⟩, hfound⟩
    rw [hloaded hnul hterminated] at hlength hfound
    obtain ⟨hsound, hended, hlines⟩ := (lines_eq_nil_iff style name 0 1 _).mp hfound
    rw [hshort, ← hpairs] at hlength
    rw [← hpairs] at hsound
    refine ⟨hnul, hterminated, hended, fun p hp => ?_⟩
    obtain ⟨hcontinues, hreads⟩ := hlines p hp
    exact ⟨hcontinues, hreads, hlength p hp, (hsound p hp).1, (hsound p hp).2⟩
  · rintro ⟨hnul, hterminated, hended, hlines⟩
    rw [hloaded hnul hterminated, hshort, lines_eq_nil_iff, ← hpairs, ← hpairs]
    exact ⟨⟨hnul, hterminated, fun p hp => (hlines p hp).short⟩,
      fun p hp => ⟨(hlines p hp).encoded, (hlines p hp).narrow⟩, hended,
      fun p hp => ⟨(hlines p hp).toContinuesCleanly, (hlines p hp).toReadsCleanly⟩⟩

/-- Where no class is ignored, the linter is silent on the clean makefiles and on no others. -/
theorem Makefile.records_eq_empty_iff {r : Registry} (hr : ∀ cls, r.action cls ≠ .ignore)
    (name : String) (style : Style) (bytes : Bytes) :
    (lintBytes name style bytes { registry := r }).2.records = #[] ↔ Clean style bytes := by
  rw [← Array.toList_eq_nil_iff, records_lintBytes, ← Lint.source_eq_nil_iff name]
  exact Registry.records_eq_nil_iff hr _

/-- A continued line with its indented continuation is clean, an indented comment is not. -/
theorem Makefile.records_eq_empty_continued :
    (∀ cls, Registry.default.action cls ≠ .ignore) ∧
      Clean {} [0x61, 0x3a, 0x20, 0x5c, 0x0a, 0x20, 0x62, 0x0a] ∧ ¬ Clean {} [0x20, 0x23, 0x0a] := by
  have hdefault : ∀ cls, Registry.default.action cls ≠ .ignore := by
    intro cls
    cases cls <;> decide
  refine ⟨hdefault, (records_eq_empty_iff hdefault "Makefile" {} _).mp (by decide), ?_⟩
  intro hclean
  have hnone := (records_eq_empty_iff hdefault "Makefile" {} _).mpr hclean
  exact absurd hnone (by decide)

end MakeLint
