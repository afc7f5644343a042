import MakeLint.Proofs.Text.Repair
/-!
# Texts alike in ASCII

Two texts are alike if they differ only in bytes outside ASCII and in how many of these stand
together. White space, backslashes and number signs are all ASCII, so that whatever the checks of a
line look for is found at the same place in texts that are alike. A text and its repair are alike.
-/

namespace MakeLint

namespace Bytes

/-- Some bytes, and none of them ASCII. -/
def Foreign (bytes : Bytes) : Prop :=
  bytes ≠ [] ∧ ∀ b ∈ bytes, 0x80 ≤ b

inductive Alike : Bytes → Bytes → Prop
  | nil : Alike [] []
  | ascii {b : UInt8} {xs ys : Bytes} : b < 0x80 → Alike xs ys → Alike (b :: xs) (b :: ys)
  | foreign {us vs xs ys : Bytes} : Foreign us → Foreign vs → Alike xs ys →
      Alike (us ++ xs) (vs ++ ys)

theorem Foreign.reverse {us : Bytes} (h : Foreign us) : Foreign us.reverse :=
  ⟨by simpa using h.1, by simpa using h.2⟩

theorem Foreign.exists_cons {us : Bytes} (h : Foreign us) : ∃ u rest, us = u :: rest ∧ 0x80 ≤ u := by
  obtain ⟨u, rest, rfl⟩ := List.exists_cons_of_ne_nil h.1
  exact ⟨u, rest, rfl, h.2 u List.mem_cons_self⟩

namespace Alike

theorem of_foreign {us vs : Bytes} (hu : Foreign us) (hv : Foreign vs) : Alike us vs := by
  simpa using Alike.foreign hu hv .nil

theorem refl (xs : Bytes) : Alike xs xs := by
  induction xs with
  | nil => exact .nil
  | cons x xs ih =>
    by_cases hx : x < 0x80
    · exact .ascii hx ih
    · have hforeign : Foreign [x] := ⟨by simp, by simpa using hx⟩
      exact .foreign hforeign hforeign ih

theorem append {as bs xs ys : Bytes} (h : Alike as bs) (h' : Alike xs ys) :
    Alike (as ++ xs) (bs ++ ys) := by
  induction h with
  | nil => exact h'
  | ascii hb _ ih => exact .ascii hb ih
  | foreign hu hv _ ih =>
    rw [List.append_assoc, List.append_assoc]
    exact .foreign hu hv ih

theorem reverse {xs ys : Bytes} (h : Alike xs ys) : Alike xs.reverse ys.reverse := by
  induction h with
  | nil => exact .nil
  | ascii hb _ ih =>
    rw [List.reverse_cons, List.reverse_cons]
    exact ih.append (.ascii hb .nil)
  | foreign hu hv _ ih =>
    rw [List.reverse_append, List.reverse_append]
    exact ih.append (of_foreign hu.reverse hv.reverse)

end Alike

/-! ### Bytes of interest

A test that only ASCII passes, such as one for white space or for one given byte, finds the same in
texts that are alike. -/

/-- No byte outside ASCII passes the test. -/
def AsciiTest (p : UInt8 → Bool) : Prop :=
  ∀ b, 0x80 ≤ b → p b = false

theorem asciiTest_isSpace : AsciiTest Byte.isSpace := by
  intro b hb
  have hspace : b ≠ Byte.space := fun h => absurd hb (by rw [h]; decide)
  have hhigh : ¬ b ≤ 0x0d := fun h => absurd (UInt8.le_trans hb h) (by decide)
  simp [Byte.isSpace, hspace, hhigh]

theorem asciiTest_eq {c : UInt8} (hc : c < 0x80) : AsciiTest (· == c) := by
  intro b hb
  rw [beq_eq_false_iff_ne]
  rintro rfl
  exact UInt8.not_le.mpr hc hb

namespace Alike

variable {xs ys : Bytes} {p : UInt8 → Bool}

theorem any_eq (h : Alike xs ys) (hp : AsciiTest p) : xs.any p = ys.any p := by
  have hnone : ∀ {us : Bytes}, Foreign us → us.any p = false := fun hu =>
    List.any_eq_false.mpr fun b hb => Bool.eq_false_iff.mp (hp b (hu.2 b hb))
  induction h with
  | nil => rfl
  | ascii _ _ ih => rw [List.any_cons, List.any_cons, ih]
  | foreign hu hv _ ih => rw [List.any_append, List.any_append, hnone hu, hnone hv, ih]

theorem all_eq (h : Alike xs ys) (hp : AsciiTest p) : xs.all p = ys.all p := by
  induction h with
  | nil => rfl
  | ascii _ _ ih => rw [List.all_cons, List.all_cons, ih]
  | foreign hu hv _ _ =>
    obtain ⟨u, us, rfl, hlow⟩ := hu.exists_cons
    obtain ⟨v, vs, rfl, hlow'⟩ := hv.exists_cons
    simp [hp u hlow, hp v hlow']

theorem takeWhile_eq (h : Alike xs ys) (hp : AsciiTest p) : xs.takeWhile p = ys.takeWhile p := by
  induction h with
  | nil => rfl
  | ascii _ _ ih => rw [List.takeWhile_cons, List.takeWhile_cons, ih]
  | foreign hu hv _ _ =>
    obtain ⟨u, us, rfl, hlow⟩ := hu.exists_cons
    obtain ⟨v, vs, rfl, hlow'⟩ := hv.exists_cons
    simp [hp u hlow, hp v hlow']

theorem dropWhile (h : Alike xs ys) (hp : AsciiTest p) :
    Alike (xs.dropWhile p) (ys.dropWhile p) := by
  induction h with
  | nil => exact .nil
  | ascii hb h ih =>
    rw [List.dropWhile_cons, List.dropWhile_cons]
    split
    · exact ih
    · exact .ascii hb h
  | foreign hu hv h _ =>
    obtain ⟨u, us, rfl, hlow⟩ := hu.exists_cons
    obtain ⟨v, vs, rfl, hlow'⟩ := hv.exists_cons
    simpa [hp u hlow, hp v hlow'] using Alike.foreign hu hv h

theorem head?_map (h : Alike xs ys) (hp : AsciiTest p) : xs.head?.map p = ys.head?.map p := by
  cases h with
  | nil => rfl
  | ascii _ _ => rfl
  | foreign hu hv _ =>
    obtain ⟨u, us, rfl, hlow⟩ := hu.exists_cons
    obtain ⟨v, vs, rfl, hlow'⟩ := hv.exists_cons
    simp [hp u hlow, hp v hlow']

theorem getLast?_map (h : Alike xs ys) (hp : AsciiTest p) :
    xs.getLast?.map p = ys.getLast?.map p := by
  rw [← List.head?_reverse, ← List.head?_reverse]
  exact h.reverse.head?_map hp

theorem isEmpty_eq (h : Alike xs ys) : xs.isEmpty = ys.isEmpty := by
  cases h with
  | nil => rfl
  | ascii _ _ => rfl
  | foreign hu hv _ =>
    obtain ⟨u, us, rfl, _⟩ := hu.exists_cons
    obtain ⟨v, vs, rfl, _⟩ := hv.exists_cons
    rfl

theorem contains_eq (h : Alike xs ys) {b : UInt8} (hb : b < 0x80) :
    xs.contains b = ys.contains b := by
  rw [List.contains_eq_any_beq, List.contains_eq_any_beq]
  simpa only [BEq.comm] using h.any_eq (asciiTest_eq hb)

/-- Whether an optional byte is a given one is told by the test for it. -/
theorem eq_some_iff_map {o : Option UInt8} {b : UInt8} :
    o = some b ↔ o.map (· == b) = some true := by
  cases o <;> simp

theorem head?_iff (h : Alike xs ys) {b : UInt8} (hb : b < 0x80) :
    xs.head? = some b ↔ ys.head? = some b := by
  rw [eq_some_iff_map, h.head?_map (asciiTest_eq hb), ← eq_some_iff_map]

theorem getLast?_iff (h : Alike xs ys) {b : UInt8} (hb : b < 0x80) :
    xs.getLast? = some b ↔ ys.getLast? = some b := by
  rw [eq_some_iff_map, h.getLast?_map (asciiTest_eq hb), ← eq_some_iff_map]

theorem tail (h : Alike xs ys) {b : UInt8} (hb : b < 0x80) (hx : xs.head? = some b) :
    Alike xs.tail ys.tail := by
  cases h with
  | nil => exact .nil
  | ascii _ h => exact h
  | foreign hu _ _ =>
    obtain ⟨u, us, rfl, hlow⟩ := hu.exists_cons
    obtain rfl : u = b := by simpa using hx
    exact absurd hlow (UInt8.not_le.mpr hb)

theorem dropLast (h : Alike xs ys) {b : UInt8} (hb : b < 0x80) (hx : xs.getLast? = some b) :
    Alike xs.dropLast ys.dropLast := by
  have htail := h.reverse.tail hb (by rwa [List.head?_reverse])
  rw [List.tail_reverse, List.tail_reverse] at htail
  simpa using htail.reverse

end Alike

end Bytes

namespace Utf8

open Bytes

theorem foreign_replacement : Foreign Piece.replacement := by
  simp [Foreign, Piece.replacement]

theorem Piece.alike_repaired {p : Piece} (h : p.Sound) : Alike p.bytes p.repaired := by
  cases p with
  | character bs =>
    rcases IsCharacter.ascii_or h with ⟨b, hb, rfl⟩ | hforeign
    · exact .ascii hb .nil
    · exact .of_foreign hforeign hforeign
  | malformed bs => exact .of_foreign h foreign_replacement

/-- The repair changes nothing in ASCII. -/
theorem alike_repair (bytes : Bytes) : Alike bytes (repair bytes) := by
  have hpieces : ∀ ps : List Piece, (∀ p ∈ ps, p.Sound) →
      Alike (ps.flatMap Piece.bytes) (ps.flatMap Piece.repaired) := by
    intro ps hps
    induction ps with
    | nil => exact .nil
    | cons p ps ih =>
      exact (Piece.alike_repaired (hps p List.mem_cons_self)).append
        (ih fun q hq => hps q (List.mem_cons_of_mem _ hq))
  have halike := hpieces (pieces bytes) (pieces_sound bytes)
  rwa [flatMap_bytes_pieces] at halike

theorem mem_repair_iff {b : UInt8} (hb : b < 0x80) (bytes : Bytes) : b ∈ repair bytes ↔ b ∈ bytes := by
  have hcontains := (alike_repair bytes).contains_eq hb
  rw [← List.contains_iff_mem, ← List.contains_iff_mem, hcontains]

end Utf8

end MakeLint
