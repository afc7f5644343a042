import MakeLint.Line.Encoding
import MakeLint.Line.InPlace
import MakeLint.Proofs.Lint.Repaired
/-!
# Lines repaired in place

A repair in place decodes a part of the line, puts U+FFFD into the line and decodes what comes after it,
while a repair in one go decodes the line once. They agree because chunks are read one at a time: what
follows a malformed piece is cut as if nothing stood before it, so that a decoder that starts again
behind a replacement goes on as if it had never been interrupted. What has been decoded is not looked at
again, and that is all that has to be known of it.
-/

namespace MakeLint.Line

open Utf8

variable {l : Line} {fixed : Bytes}

/-! ### One chunk -/

theorem repairFrom_of_le {off : Nat} (h : l.data.length ≤ off) : l.repairFrom off = (l, []) := by
  rw [repairFrom, if_neg (by omega)]

/-- A text up to the end of the line is passed over. -/
theorem repairFrom_encode {text : List Char} (h : l.data = fixed ++ encode text) :
    l.repairFrom fixed.length = (l, []) := by
  by_cases htext : text = []
  · apply repairFrom_of_le
    simp [h, htext, encode]
  · have hpos := List.length_pos_iff.mpr (encode_ne_nil htext)
    have hdrop : l.data.drop fixed.length = encode text := by rw [h, List.drop_left]
    rw [repairFrom, if_pos (by rw [h, List.length_append]; omega)]
    split
    · rfl
    · next c hc =>
      rw [hdrop, chunks_encode htext] at hc
      obtain rfl := Option.some.inj hc
      rw [if_neg (by simp [Chunk.isMalformed])]
      apply repairFrom_of_le
      rw [h, List.length_append]

/-- The first malformed piece is replaced, and the repair goes on behind the replacement. -/
theorem repairFrom_maximalSubpart {text : List Char} {part rest : Bytes}
    (hpart : MaximalSubpart part rest) (h : l.data = fixed ++ (encode text ++ (part ++ rest))) :
    let done := fixed ++ (encode text ++ Piece.replacement)
    let later := ({ l with data := done ++ rest } : Line).repairFrom done.length
    l.repairFrom fixed.length = (later.1, l.finding .invalidEncoding :: later.2) := by
  intro done later
  have hpos := List.length_pos_iff.mpr hpart.nonempty
  have hdrop : l.data.drop fixed.length = encode text ++ (part ++ rest) := by
    rw [h, List.drop_left]
  rw [repairFrom, if_pos (by rw [h]; simp only [List.length_append]; omega)]
  split
  · next hc =>
    rw [hdrop, chunks_encode_append text hpart] at hc
    cases hc
  · next c hc =>
    rw [hdrop, chunks_encode_append text hpart] at hc
    obtain rfl := Option.some.inj hc
    have hsplice : l.splice (fixed.length + (encode text).length) part.length =
        { l with data := done ++ rest } := by
      have hbefore : l.data = (fixed ++ encode text) ++ (part ++ rest) := by
        rw [h, List.append_assoc]
      have hthrough : l.data = (fixed ++ encode text ++ part) ++ rest := by
        rw [hbefore, List.append_assoc _ part rest]
      have htake : l.data.take (fixed.length + (encode text).length) = fixed ++ encode text := by
        rw [hbefore, ← List.length_append, List.take_left]
      have hskip : l.data.drop (fixed.length + (encode text).length + part.length) = rest := by
        rw [hthrough, ← List.length_append, ← List.length_append, List.drop_left]
      simp only [splice, htake, hskip, done, List.append_assoc]
    have hoff : fixed.length + (encode text).length + Piece.replacement.length = done.length := by
      simp only [done, List.length_append, Nat.add_assoc]
    rw [if_pos (by simp [Chunk.isMalformed, hpart.nonempty])]
    simp only [hsplice, hoff, later]

/-! ### The whole line -/

/-- A repair from an offset on repairs what stands behind the offset. -/
theorem repairFrom_eq {bytes : Bytes} (h : l.data = fixed ++ bytes) :
    l.repairFrom fixed.length = ({ l with data := fixed ++ Utf8.repair bytes },
      List.replicate (malformedCount bytes) (l.finding .invalidEncoding)) := by
  obtain ⟨cs, hchunks⟩ : ∃ cs, ChunkedAs bytes cs := ⟨_, chunkedAs_chunks bytes⟩
  induction hchunks generalizing l fixed with
  | nil =>
    rw [repairFrom_of_le (by simp [h]), repair_eq_self rfl, ← h]
    rfl
  | @text text _ =>
    rw [repairFrom_encode h, repair_eq_self (isValid_encode text),
      (malformedCount_eq_zero _).mpr (isValid_encode text), ← h]
    rfl
  | @malformed text part rest cs hpart _ ih =>
    rw [repairFrom_maximalSubpart hpart h, ih rfl, repair_encode_append, repair_maximalSubpart hpart,
      malformedCount_encode_append, malformedCount_maximalSubpart hpart, List.replicate_succ]
    simp only [List.append_assoc]
    rfl

/-- A repair in place does what a repair in one go does. -/
theorem repairInPlace_eq (l : Line) : l.repairInPlace = (l.repair, l.encodingFindings) :=
  l.repairFrom_eq (List.nil_append _).symm

theorem flatMap_notices_encodingFindings (l : Line) :
    l.encodingFindings.flatMap Finding.notices =
      (List.replicate (malformedCount l.data) (l.finding .invalidEncoding).notices).flatten := by
  rw [encodingFindings, List.flatMap_def, List.map_replicate]

/-- A repair in place leaves the lossy decoding of the line, chunk by chunk, and reports each malformed
chunk once. -/
theorem repairInPlace_decodes (s : Sink) (l : Line) :
    let chunks := Utf8.chunks l.data
    let done := l.repairInPlace
    (∀ cs, ChunkedAs l.data cs ↔ cs = chunks) ∧
      done = (l.repair, l.encodingFindings) ∧
      done.1 = { l with data := chunks.flatMap Chunk.repaired } ∧
      (∃ text, done.1.data = encode text) ∧
      l.data.length ≤ done.1.data.length ∧
      (done.1.data = l.data ↔ ∃ text, l.data = encode text) ∧
      (s.addFindings done.2).records.toList = s.records.toList ++
        (if s.registry.action .encoding = .ignore then [] else
          (List.replicate (chunks.countP Chunk.isMalformed)
            [.warn .encoding .unspecified (some l.location) "line contains invalid UTF-8",
              .info .encoding
                ("this implementation will replace it with the Unicode replacement character " ++
                  "(U+FFFD)")]).flatten.map s.registry.shown) ∧
      done.1.repairInPlace = (done.1, []) := by
  intro chunks done
  have hchunks : ChunkedAs l.data chunks := chunkedAs_chunks l.data
  have hdone : done = (l.repair, l.encodingFindings) := l.repairInPlace_eq
  have hvalid : isValid l.repair.data = true := isValid_repair l.data
  have hrepaired : l.repair = { l with data := chunks.flatMap Chunk.repaired } := by
    rw [Line.repair, hchunks.repair_eq]
  have hcls : ∀ f ∈ l.encodingFindings, f.defect.cls = .encoding := by
    intro f hf
    rw [mem_encodingFindings hf]
    rfl
  rw [hdone]
  refine ⟨chunkedAs_iff l.data, rfl, hrepaired, (isValid_iff _).mp hvalid,
    length_le_length_repair l.data, repair_eq_self_iff l.data, ?_, ?_⟩
  · rw [Sink.records_addFindings, Registry.records_of_cls hcls, flatMap_notices_encodingFindings,
      hchunks.malformedCount_eq]
    rfl
  · rw [repairInPlace_eq, repair_repair, Lint.encodingFindings_repair]

/-- A byte that starts nothing, a character cut off in its middle, and one cut off by the end. -/
example :
    (repairInPlace ⟨[0x61, 0xff, 0xe2, 0x82, 0x62, 0xf0, 0x9f], "Makefile", 1, true, 0, .none⟩).1.data =
      [0x61, 0xef, 0xbf, 0xbd, 0xef, 0xbf, 0xbd, 0x62, 0xef, 0xbf, 0xbd] := by
  rw [repairInPlace_eq]
  decide

end MakeLint.Line
