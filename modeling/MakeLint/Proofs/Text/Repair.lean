import MakeLint.Proofs.Text.Columns
/-!
# Repaired text

The repair of bytes is read as the characters of the bytes with U+FFFD for each malformed piece. It is
therefore valid, it leaves valid bytes alone, and it takes as many columns as the bytes did. A repair
can be cut at any ASCII byte.
-/

namespace MakeLint.Utf8

/-- What a piece is after the repair. -/
def Piece.mended : Piece → Piece
  | character bs => .character bs
  | malformed _ => .character replacement

theorem pieces_flatMap_repaired {ps : List Piece} (h : ∀ p ∈ ps, p.Sound) :
    pieces (ps.flatMap Piece.repaired) = ps.map Piece.mended := by
  induction ps with
  | nil => rfl
  | cons p ps ih =>
    have hrest := ih fun q hq => h q (List.mem_cons_of_mem _ hq)
    have hp := h p List.mem_cons_self
    rw [List.flatMap_cons, List.map_cons, ← hrest]
    cases p with
    | character bs => exact pieces_append_character hp _
    | malformed bs => exact pieces_append_character isCharacter_replacement _

theorem pieces_repair (bytes : Bytes) :
    pieces (repair bytes) = (pieces bytes).map Piece.mended :=
  pieces_flatMap_repaired (pieces_sound bytes)

theorem isMalformed_mended (p : Piece) : p.mended.isMalformed = false := by
  cases p <;> rfl

theorem isValid_repair (bytes : Bytes) : isValid (repair bytes) = true := by
  simp [isValid, pieces_repair, isMalformed_mended]

theorem repair_eq_self {bytes : Bytes} (h : isValid bytes = true) : repair bytes = bytes := by
  conv_rhs => rw [← flatMap_bytes_pieces bytes]
  apply List.flatMap_congr
  intro p hp
  have hp := List.all_eq_true.mp h p hp
  cases p with
  | character bs => rfl
  | malformed bs => cases hp

theorem malformedCount_eq_zero (bytes : Bytes) :
    malformedCount bytes = 0 ↔ isValid bytes = true := by
  simp [malformedCount, isValid]

theorem repair_append_ascii (xs : Bytes) {b : UInt8} (hb : b < 0x80) (ys : Bytes) :
    repair (xs ++ b :: ys) = repair xs ++ b :: repair ys := by
  rw [repair, pieces_append_ascii xs hb, List.flatMap_append, List.flatMap_cons]
  rfl

end MakeLint.Utf8

namespace MakeLint.Columns

open Utf8

/-- U+FFFD takes the column that a malformed piece is counted for. -/
theorem ofPiece_replacement : ofPiece (.character Piece.replacement) = 1 := by
  decide +kernel

theorem ofPiece_mended (p : Piece) : ofPiece p.mended = ofPiece p := by
  cases p with
  | character bs => rfl
  | malformed bs => exact ofPiece_replacement

theorem ofBytes_repair (bytes : Bytes) : ofBytes (repair bytes) = ofBytes bytes := by
  rw [ofBytes, pieces_repair, total_map, ofBytes]
  simp only [ofPiece_mended]

end MakeLint.Columns
