import MakeLint.Line.Encoding
import MakeLint.Line.Width
import MakeLint.Proofs.Finding
import MakeLint.Proofs.Lint.Findings
import MakeLint.Proofs.Text.Alike
import MakeLint.Proofs.Text.Chunks
/-!
# Width of lines

A line of no more bytes than columns allowed need not be measured, since it takes no more columns than
it has bytes: the width check finds what it would find by measuring every line. The repair changes
neither the columns of a line nor whether it ends in a backslash.
-/

namespace MakeLint

theorem Utf8.repair_dropBackslash (bytes : Bytes) :
    (repair bytes).dropBackslash = repair bytes.dropBackslash := by
  have hback : Byte.backslash < 0x80 := by decide
  have hlast := (alike_repair bytes).getLast?_iff hback
  unfold Bytes.dropBackslash
  by_cases h : bytes.getLast? = some Byte.backslash
  · rw [if_pos h, if_pos (hlast.mp h)]
    obtain ⟨xs, rfl⟩ := List.getLast?_eq_some_iff.mp h
    rw [repair_append_ascii xs hback]
    simp [repair, pieces, scan, flush]
  · rw [if_neg h, if_neg (fun hr => h (hlast.mpr hr))]

namespace Line

/-- The width check finds what measuring every line would find. -/
theorem widthFindings_eq (style : Style) (l : Line) :
    l.widthFindings style =
      if style.maxLineLength < Columns.ofBytes l.content then
        [l.finding (.wideLine (Columns.ofBytes l.content) style.maxLineLength
          (l.data.length + 1 ≤ Defect.lineMax))]
      else [] := by
  have hbound := Columns.ofBytes_le_length l.content
  rw [widthFindings]
  split
  · rw [if_neg (by omega)]
  · rfl

theorem widthFindings_eq_nil_iff (style : Style) (l : Line) :
    l.widthFindings style = [] ↔ Columns.ofBytes l.content ≤ style.maxLineLength := by
  rw [widthFindings_eq]
  split
  · next h => simpa using h
  · next h => simpa using h

theorem columns_content_repair (l : Line) :
    Columns.ofBytes l.repair.content = Columns.ofBytes l.content := by
  change Columns.ofBytes (Utf8.repair l.data).dropBackslash = Columns.ofBytes l.data.dropBackslash
  rw [Utf8.repair_dropBackslash, Columns.ofBytes_repair]

/-- The width check that measures every line. -/
def measuredFindings (style : Style) (l : Line) : List Finding :=
  let columns := Columns.ofBytes l.content
  if style.maxLineLength < columns then
    [l.finding (.wideLine columns style.maxLineLength (l.data.length + 1 ≤ Defect.lineMax))]
  else
    []

theorem notices_widthFindings (style : Style) (l : Line) :
    (l.widthFindings style).flatMap Finding.notices =
      if style.maxLineLength < Columns.ofBytes l.content then
        .warn .longLine .style (some l.location)
            ("line is " ++ toString (Columns.ofBytes l.content) ++
              " columns long, which is longer than " ++ toString style.maxLineLength ++ " columns") ::
          if l.data.length + 1 ≤ Defect.lineMax then [.longLineTip .longLine] else []
      else [] := by
  rw [widthFindings_eq]
  by_cases hwide : style.maxLineLength < Columns.ofBytes l.content
  · rw [if_pos hwide, if_pos hwide, List.flatMap_singleton, Finding.notices, Line.finding,
      Defect.notes]
    simp only [decide_eq_true_eq]
    rfl
  · rw [if_neg hwide, if_neg hwide, List.flatMap_nil]

/-- Bytes are measured chunk by chunk, and so a text character by character, and take no more columns
than there are bytes. What is recorded of the width of a line depends on its columns alone, although a
line is measured only if it has more bytes than columns are allowed; a repair does not change them. -/
theorem records_widthFindings (s : Sink) (style : Style) (l : Line) :
    let columns := Columns.ofBytes l.data.dropBackslash
    (∀ bytes, Columns.ofBytes bytes = total Utf8.Chunk.columns (Utf8.chunks bytes) ∧
        Columns.ofBytes bytes ≤ bytes.length) ∧
      (∀ text, Columns.ofBytes (Utf8.encode text) = Columns.ofText text) ∧
      l.widthFindings style = l.measuredFindings style ∧
      (s.addFindings (l.widthFindings style)).records.toList = s.records.toList ++
        (if s.registry.action .longLine = .ignore then []
        else if style.maxLineLength < columns then
          (.warn .longLine .style (some l.location)
              ("line is " ++ toString columns ++ " columns long, which is longer than " ++
                toString style.maxLineLength ++ " columns") ::
            if l.data.length + 1 ≤ Defect.lineMax then [.longLineTip .longLine] else []).map
              s.registry.shown
        else []) ∧
      ∀ bytes, Columns.ofBytes (Utf8.repair bytes) = Columns.ofBytes bytes := by
  intro columns
  refine ⟨fun bytes => ⟨(Utf8.chunkedAs_chunks bytes).columns_eq, Columns.ofBytes_le_length bytes⟩,
    Columns.ofBytes_encode, widthFindings_eq style l, ?_, Columns.ofBytes_repair⟩
  have hcls : ∀ f ∈ l.widthFindings style, f.defect.cls = .longLine := by
    intro f hf
    obtain ⟨_, _, _, rfl⟩ := mem_widthFindings hf
    rfl
  rw [Sink.records_addFindings, Registry.records_of_cls hcls, notices_widthFindings,
    apply_ite (List.map s.registry.shown), List.map_nil]
  rfl

end Line

end MakeLint
