import MakeLint.Text.Columns
import MakeLint.Proofs.Text.Encode
import MakeLint.Proofs.Total
/-!
# Columns of encoded text

The columns of bytes that encode a text are those of its characters, and no text takes more columns
than it has bytes: the characters of two columns and the one of three are all encoded by three bytes
or more.
-/

namespace MakeLint.Columns

open Utf8

/-- The columns of a text, character by character. -/
def ofText (text : List Char) : Nat :=
  total (fun c => ofCodePoint c.toNat) text

theorem ofBytes_encode (text : List Char) : ofBytes (encode text) = ofText text := by
  rw [ofBytes, pieces_encode, total_map, ofText]
  simp only [ofPiece, codePoint_encode]

/-! ### The bound -/

theorem le_of_listed_wide {n : Nat} (h : listed wide n = true) : 0x1100 ≤ n := by
  have hall : wide.all (fun r => 0x1100 ≤ r.1) = true := by decide +kernel
  obtain ⟨r, hr, hn⟩ := List.any_eq_true.mp h
  have hlow := List.all_eq_true.mp hall r hr
  simp only [Bool.and_eq_true, decide_eq_true_eq] at hn hlow
  exact Nat.le_trans hlow hn.1

theorem ofCodePoint_le_three (n : Nat) : ofCodePoint n ≤ 3 := by
  unfold ofCodePoint
  split_ifs <;> omega

theorem ofCodePoint_le_one {n : Nat} (h : n < 0x800) : ofCodePoint n ≤ 1 := by
  have hwide : ¬ listed wide n = true := fun hl => absurd (le_of_listed_wide hl) (by omega)
  unfold ofCodePoint
  split_ifs <;> omega

theorem ofCodePoint_le_length {bytes : Bytes} (h : IsCharacter bytes) :
    ofCodePoint (codePoint bytes) ≤ bytes.length := by
  rcases Nat.lt_or_ge (codePoint bytes) 0x800 with hlow | hhigh
  · obtain ⟨b, _, rest, rfl, _, _⟩ := h
    exact Nat.le_trans (ofCodePoint_le_one hlow) (by simp)
  · exact Nat.le_trans (ofCodePoint_le_three _) (h.three_le_length hhigh)

theorem ofPiece_le_length {p : Piece} (h : p.Sound) : ofPiece p ≤ p.bytes.length := by
  cases p with
  | character bs => exact ofCodePoint_le_length h
  | malformed bs => exact List.length_pos_iff.mpr h.1

/-- No text takes more columns than it has bytes. -/
theorem ofBytes_le_length (bytes : Bytes) : ofBytes bytes ≤ bytes.length := by
  calc ofBytes bytes = total ofPiece (pieces bytes) := rfl
    _ ≤ total (fun p => p.bytes.length) (pieces bytes) :=
      total_le fun p hp => ofPiece_le_length (pieces_sound bytes p hp)
    _ = ((pieces bytes).flatMap Piece.bytes).length := total_length_flatMap _ _
    _ = bytes.length := by rw [flatMap_bytes_pieces]

end MakeLint.Columns
