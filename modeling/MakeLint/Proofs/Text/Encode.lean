import MakeLint.Proofs.Text.Utf8
/-!
# Encoded text

Bytes that the reader finds nothing wrong with are the encoding of a text, and the encoding of a text
is read as its characters. The tables of the reader are compared here with the arithmetic that encodes
a character, one length of encoding after the other.
-/

namespace MakeLint.Utf8

/-- The bytes of a text. -/
def encode (text : List Char) : Bytes :=
  text.flatMap String.utf8EncodeChar

theorem contains_iff (r : Range) (b : UInt8) :
    r.contains b = true ↔ r.1.toNat ≤ b.toNat ∧ b.toNat ≤ r.2.toNat := by
  simp [Range.contains, UInt8.le_iff_toNat_le]

/-- A byte that may stand after the first byte of a character, and in most places any of them. -/
def IsTrail (n : Nat) : Prop :=
  0x80 ≤ n ∧ n < 0xc0

theorem isCharacter_cons (a : UInt8) (rest : Bytes) :
    IsCharacter (a :: rest) ↔ ∃ ranges ∈ following? a, Fits ranges rest := by
  constructor
  · rintro ⟨_, ranges, _, heq, ha, hfits⟩
    obtain ⟨rfl, rfl⟩ := List.cons.inj heq
    exact ⟨ranges, ha, hfits⟩
  · rintro ⟨ranges, ha, hfits⟩
    exact ⟨a, ranges, rest, rfl, ha, hfits⟩

theorem isCharacter_one (a : UInt8) : IsCharacter [a] ↔ a.toNat < 0x80 := by
  rw [isCharacter_cons, exists_ranges_iff]
  simp

theorem isCharacter_two (a b : UInt8) :
    IsCharacter [a, b] ↔ (0xc2 ≤ a.toNat ∧ a.toNat < 0xe0) ∧ IsTrail b.toNat := by
  rw [isCharacter_cons, exists_ranges_iff]
  simp [contains_iff, trail, IsTrail]
  omega

theorem isCharacter_three (a b c : UInt8) :
    IsCharacter [a, b, c] ↔ (0xe0 ≤ a.toNat ∧ a.toNat < 0xf0) ∧ IsTrail b.toNat ∧
      IsTrail c.toNat ∧ (a.toNat = 0xe0 → 0xa0 ≤ b.toNat) ∧ (a.toNat = 0xed → b.toNat < 0xa0) := by
  rw [isCharacter_cons, exists_ranges_iff]
  simp [contains_iff, trail, IsTrail]
  omega

theorem isCharacter_four (a b c d : UInt8) :
    IsCharacter [a, b, c, d] ↔ (0xf0 ≤ a.toNat ∧ a.toNat < 0xf5) ∧ IsTrail b.toNat ∧
      IsTrail c.toNat ∧ IsTrail d.toNat ∧ (a.toNat = 0xf0 → 0x90 ≤ b.toNat) ∧
      (a.toNat = 0xf4 → b.toNat < 0x90) := by
  rw [isCharacter_cons, exists_ranges_iff]
  simp [contains_iff, trail, IsTrail]
  omega

theorem IsCharacter.length_le {bytes : Bytes} (h : IsCharacter bytes) : bytes.length ≤ 4 := by
  obtain ⟨a, ranges, rest, rfl, ha, hfits⟩ := h
  have hlength : ∃ ranges ∈ following? a, ranges.length = rest.length :=
    ⟨ranges, ha, hfits.length_eq⟩
  rw [exists_ranges_iff] at hlength
  simp only [List.length_cons, List.length_nil] at hlength ⊢
  omega

/-- The characters of one and two bytes are those below U+0800. -/
theorem IsCharacter.three_le_length {bytes : Bytes} (h : IsCharacter bytes)
    (hn : 0x800 ≤ codePoint bytes) : 3 ≤ bytes.length := by
  match bytes, h with
  | [], h => obtain ⟨_, _, _, h, _⟩ := h; cases h
  | [a], h =>
    rw [isCharacter_one] at h
    simp only [codePoint] at hn
    omega
  | [a, b], h =>
    rw [isCharacter_two, IsTrail] at h
    simp only [codePoint] at hn
    omega
  | _ :: _ :: _ :: _, _ => simp

/-- The bound as a numeral, so that it is arithmetic. -/
theorem toNat_ofNat {n : Nat} (h : n < 256) : (UInt8.ofNat n).toNat = n :=
  UInt8.toNat_ofNat_of_lt h

theorem isCharacter_encode (c : Char) : IsCharacter (String.utf8EncodeChar c) := by
  have hvalid := c.valid
  simp only [UInt32.isValidChar, Nat.isValidChar] at hvalid
  fun_cases String.utf8EncodeChar c with
  | case1 v h =>
    rw [isCharacter_one, toNat_ofNat (by omega)]
    omega
  | case2 v h h' =>
    rw [isCharacter_two, toNat_ofNat (by omega), toNat_ofNat (by omega), IsTrail]
    omega
  | case3 v h h' h'' =>
    rw [isCharacter_three, toNat_ofNat (by omega), toNat_ofNat (by omega), toNat_ofNat (by omega),
      IsTrail, IsTrail]
    omega
  | case4 v h h' h'' =>
    rw [isCharacter_four, toNat_ofNat (by omega), toNat_ofNat (by omega), toNat_ofNat (by omega),
      toNat_ofNat (by omega), IsTrail, IsTrail, IsTrail]
    omega

theorem codePoint_encode (c : Char) : codePoint (String.utf8EncodeChar c) = c.toNat := by
  have hvalid := c.valid
  simp only [UInt32.isValidChar, Nat.isValidChar] at hvalid
  change _ = c.val.toNat
  fun_cases String.utf8EncodeChar c with
  | case1 v h =>
    rw [codePoint, toNat_ofNat (by omega)]
  | case2 v h h' =>
    rw [codePoint, toNat_ofNat (by omega), toNat_ofNat (by omega)]
    omega
  | case3 v h h' h'' =>
    rw [codePoint, toNat_ofNat (by omega), toNat_ofNat (by omega), toNat_ofNat (by omega)]
    omega
  | case4 v h h' h'' =>
    rw [codePoint, toNat_ofNat (by omega), toNat_ofNat (by omega), toNat_ofNat (by omega),
      toNat_ofNat (by omega)]
    omega

theorem IsCharacter.isValidChar {bytes : Bytes} (h : IsCharacter bytes) :
    (codePoint bytes).isValidChar := by
  match bytes, h with
  | [], h => obtain ⟨_, _, _, h, _⟩ := h; cases h
  | [a], h =>
    rw [isCharacter_one] at h
    simp only [codePoint, Nat.isValidChar]
    omega
  | [a, b], h =>
    rw [isCharacter_two, IsTrail] at h
    simp only [codePoint, Nat.isValidChar]
    omega
  | [a, b, c], h =>
    rw [isCharacter_three, IsTrail, IsTrail] at h
    simp only [codePoint, Nat.isValidChar]
    omega
  | [a, b, c, d], h =>
    rw [isCharacter_four, IsTrail, IsTrail, IsTrail] at h
    simp only [codePoint, Nat.isValidChar]
    omega
  | _ :: _ :: _ :: _ :: _ :: _, h =>
    have hlength := h.length_le
    simp only [List.length_cons] at hlength
    omega

theorem ofNat_eq {n : Nat} {b : UInt8} (h : n = b.toNat) : UInt8.ofNat n = b := by
  rw [h, UInt8.ofNat_toNat]

/-- The bytes of a character are those of the character that they number. -/
theorem IsCharacter.eq_encode {bytes : Bytes} (h : IsCharacter bytes) :
    bytes = String.utf8EncodeChar (Char.ofNat (codePoint bytes)) := by
  have hval : (Char.ofNat (codePoint bytes)).val.toNat = codePoint bytes := by
    rw [Char.ofNat, dif_pos h.isValidChar]
    rfl
  symm
  rw [String.utf8EncodeChar, hval]
  match bytes, h with
  | [], h => obtain ⟨_, _, _, h, _⟩ := h; cases h
  | [a], h =>
    rw [isCharacter_one] at h
    rw [codePoint, if_pos (by omega), ofNat_eq rfl]
  | [a, b], h =>
    rw [isCharacter_two, IsTrail] at h
    rw [codePoint, if_neg (by omega), if_pos (by omega)]
    congr 2 <;> apply ofNat_eq <;> omega
  | [a, b, c], h =>
    rw [isCharacter_three, IsTrail, IsTrail] at h
    rw [codePoint, if_neg (by omega), if_neg (by omega), if_pos (by omega)]
    congr 3 <;> apply ofNat_eq <;> omega
  | [a, b, c, d], h =>
    rw [isCharacter_four, IsTrail, IsTrail, IsTrail] at h
    rw [codePoint, if_neg (by omega), if_neg (by omega), if_neg (by omega)]
    congr 4 <;> apply ofNat_eq <;> omega
  | _ :: _ :: _ :: _ :: _ :: _, h =>
    have hlength := h.length_le
    simp only [List.length_cons] at hlength
    omega

theorem pieces_encode (text : List Char) :
    pieces (encode text) = text.map fun c => .character (String.utf8EncodeChar c) := by
  induction text with
  | nil => rfl
  | cons c text ih =>
    rw [encode, List.flatMap_cons, pieces_append_character (isCharacter_encode c), List.map_cons,
      ← ih, encode]

/-- Bytes are valid exactly if they encode a text. -/
theorem isValid_iff (bytes : Bytes) : isValid bytes = true ↔ ∃ text, bytes = encode text := by
  constructor
  · intro h
    refine ⟨(pieces bytes).map fun p => Char.ofNat (codePoint p.bytes), ?_⟩
    rw [encode, List.flatMap_map]
    conv_lhs => rw [← flatMap_bytes_pieces bytes]
    apply List.flatMap_congr
    intro p hp
    have hsound := pieces_sound bytes p hp
    have hvalid := List.all_eq_true.mp h p hp
    cases p with
    | character c => exact IsCharacter.eq_encode hsound
    | malformed _ => cases hvalid
  · rintro ⟨text, rfl⟩
    simp [isValid, pieces_encode, Piece.isMalformed]

end MakeLint.Utf8
