import MakeLint.Proofs.Line.InPlace
import MakeLint.Proofs.Line.Scan
/-!
# Repair before and after cutting

An ASCII byte is a character of its own wherever it stands, so what has been read of a character before
it ends there as it would at the end of the bytes. Bytes may therefore be cut at any ASCII byte and
decoded in parts: the parts are repaired as they were in the whole, with as many replacements and as
many columns. A newline is such a byte, and a buffer that is repaired in one go before it is cut into
lines gives the lines that are repaired one by one.
-/

namespace MakeLint

namespace Utf8

theorem malformedCount_append_ascii (xs : Bytes) {b : UInt8} (hb : b < 0x80) (ys : Bytes) :
    malformedCount (xs ++ b :: ys) = malformedCount xs + malformedCount ys := by
  rw [malformedCount, pieces_append_ascii xs hb, List.countP_append,
    List.countP_cons_of_neg (by simp [Piece.isMalformed])]
  rfl

/-- The pieces between the occurrences of an ASCII byte are repaired each by itself. -/
theorem splitOn_repair {sep : UInt8} (hsep : sep < 0x80) (bytes : Bytes) :
    (repair bytes).splitOn sep = (bytes.splitOn sep).map repair := by
  by_cases hmem : sep ∈ bytes
  · obtain ⟨first, rest, hsplit, hfirst⟩ := List.eq_append_cons_of_mem hmem
    have hrepaired : sep ∉ repair first := by rwa [mem_repair_iff hsep]
    rw [hsplit, repair_append_ascii first hsep, List.splitOn_append_cons_self,
      List.splitOn_append_cons_self, List.splitOn_eq_singleton hfirst,
      List.splitOn_eq_singleton hrepaired, splitOn_repair hsep rest]
    rfl
  · have hrepaired : sep ∉ repair bytes := by rwa [mem_repair_iff hsep]
    rw [List.splitOn_eq_singleton hmem, List.splitOn_eq_singleton hrepaired]
    rfl
termination_by bytes.length
decreasing_by
  rw [hsplit, List.length_append, List.length_cons]
  omega

end Utf8

namespace Columns

open Utf8

theorem ofCodePoint_ascii {n : Nat} (h : n < 0x80) : ofCodePoint n = 1 := by
  rcases Nat.lt_or_ge n 0x7f with hlow | hhigh
  · rw [ofCodePoint, if_pos hlow]
  · obtain rfl : n = 0x7f := by omega
    decide +kernel

theorem ofBytes_append_ascii (xs : Bytes) {b : UInt8} (hb : b < 0x80) (ys : Bytes) :
    ofBytes (xs ++ b :: ys) = ofBytes xs + 1 + ofBytes ys := by
  have hone : ofPiece (.character [b]) = 1 := ofCodePoint_ascii (UInt8.lt_iff_toNat_lt.mp hb)
  rw [ofBytes, pieces_append_ascii xs hb, total_append, total_cons, hone, ← Nat.add_assoc]
  rfl

end Columns

namespace Line

open Utf8

/-! ### Lines of a buffer -/

theorem text_cons (l : Line) (ls : List Line) : text (l :: ls) = l.data ++ Byte.newline :: text ls := by
  rw [text, List.flatMap_cons, List.append_assoc, List.singleton_append]
  rfl

theorem text_map_repair (ls : List Line) : text (ls.map Line.repair) = Utf8.repair (text ls) := by
  induction ls with
  | nil => rfl
  | cons l ls ih =>
    rw [List.map_cons, text_cons, ih, text_cons, repair_append_ascii l.data (by decide)]
    rfl

theorem malformedCount_text (ls : List Line) :
    malformedCount (text ls) = total (fun l => malformedCount l.data) ls := by
  induction ls with
  | nil => rfl
  | cons l ls ih => rw [text_cons, malformedCount_append_ascii l.data (by decide), ih, total_cons]

theorem length_encodingFindings (l : Line) : l.encodingFindings.length = malformedCount l.data :=
  List.length_replicate

/-- Cutting a repaired buffer gives the repaired lines of the buffer. -/
theorem Scan.lines_repair (path : String) (nestLevel : Nat) (s : Scan) :
    ({ s with buffer := Utf8.repair s.buffer } : Scan).lines path nestLevel =
      (s.lines path nestLevel).map Line.repair := by
  apply List.ext_getElem?
  intro i
  simp only [Scan.lines, splitOn_repair (by decide : Byte.newline < 0x80), ← List.map_take,
    List.getElem?_mapIdx, List.getElem?_map, Option.map_map]
  rfl

/-- Put together again, the lines that a source is cut into are the buffer that they were cut from. -/
theorem text_scan (path : String) (nestLevel : Nat) (bytes : Bytes) :
    text (scan path nestLevel bytes).1 = ((Scan.bytes path {} bytes).terminate path).buffer := by
  rw [scan_eq, text_ofBytes, Scan.terminate_bytes]

/-- The repair in place of any bytes on a line. -/
theorem repairInPlace_data (l : Line) (data : Bytes) :
    ({ l with data := data } : Line).repairInPlace = ({ l with data := Utf8.repair data },
      List.replicate (malformedCount data) (l.finding .invalidEncoding)) :=
  repairInPlace_eq _

/-- Repair in place may be done in parts that are cut at ASCII bytes, and measured in parts; in
particular a buffer may be repaired in one go and cut into lines afterwards. -/
theorem repairInPlace_cut (l : Line) :
    (∀ (a b : Bytes) (c : UInt8), c < 0x80 →
      let repaired (data : Bytes) := ({ l with data := data } : Line).repairInPlace
      (repaired (a ++ [c] ++ b)).1.data = (repaired a).1.data ++ [c] ++ (repaired b).1.data ∧
        (repaired (a ++ [c] ++ b)).2 = (repaired a).2 ++ (repaired b).2 ∧
        Columns.ofBytes (a ++ [c] ++ b) = Columns.ofBytes a + 1 + Columns.ofBytes b) ∧
      ∀ (path : String) (nestLevel : Nat) (bytes : Bytes),
        let s := (Scan.bytes path {} bytes).terminate path
        let whole := ({ l with data := s.buffer } : Line).repairInPlace
        let cut := (scan path nestLevel bytes).1.map Line.repairInPlace
        ({ s with buffer := whole.1.data } : Scan).lines path nestLevel = cut.map Prod.fst ∧
          whole.1.data = text (cut.map Prod.fst) ∧
          whole.2.length = total (fun done => done.2.length) cut := by
  constructor
  · intro a b c hc repaired
    rw [List.append_assoc, List.singleton_append]
    simp only [repaired, repairInPlace_data]
    refine ⟨?_, ?_, Columns.ofBytes_append_ascii a hc b⟩
    · rw [List.append_assoc, List.singleton_append]
      exact repair_append_ascii a hc b
    · rw [malformedCount_append_ascii a hc, List.replicate_add]
  · intro path nestLevel bytes s whole cut
    have hwhole : whole = ({ l with data := Utf8.repair s.buffer },
        List.replicate (malformedCount s.buffer) (l.finding .invalidEncoding)) :=
      repairInPlace_data l s.buffer
    have hcut : cut.map Prod.fst = (scan path nestLevel bytes).1.map Line.repair := by
      rw [List.map_map]
      exact List.map_congr_left fun line _ => congrArg Prod.fst line.repairInPlace_eq
    have htext : text (scan path nestLevel bytes).1 = s.buffer := text_scan path nestLevel bytes
    rw [hwhole, hcut]
    refine ⟨Scan.lines_repair path nestLevel s, ?_, ?_⟩
    · rw [text_map_repair, htext]
    · rw [List.length_replicate, ← htext, malformedCount_text, total_map]
      simp only [repairInPlace_eq, length_encodingFindings]

/-- A character that a `=` cuts off is replaced, and so is the rest of it behind the `=`. -/
theorem repairInPlace_cut_truncated :
    let repaired (data : Bytes) := (⟨data, "Makefile", 1, true, 0, .none⟩ : Line).repairInPlace
    (0x3d : UInt8) < 0x80 ∧ (repaired [0xe2, 0x82]).1.data = Piece.replacement ∧
      (repaired [0xac]).1.data = Piece.replacement ∧
      (repaired ([0xe2, 0x82] ++ [0x3d] ++ [0xac])).1.data =
        Piece.replacement ++ [0x3d] ++ Piece.replacement := by
  intro repaired
  have hbefore : (repaired [0xe2, 0x82]).1.data = Piece.replacement := by
    simp only [repaired, repairInPlace_eq]
    decide
  have hbehind : (repaired [0xac]).1.data = Piece.replacement := by
    simp only [repaired, repairInPlace_eq]
    decide
  have hcut := (repairInPlace_cut ⟨[], "Makefile", 1, true, 0, .none⟩).1 [0xe2, 0x82] [0xac] 0x3d
    (by decide)
  refine ⟨by decide, hbefore, hbehind, hcut.1.trans ?_⟩
  exact congrArg₂ (· ++ [0x3d] ++ ·) hbefore hbehind

end Line

end MakeLint
