import MakeLint.Text.Utf8
import Mathlib.Data.List.Forall2
/-!
# Pieces of UTF-8

What the reader makes of any bytes. Its pieces put together are the bytes again, every character
among them is a first byte with the bytes that it asks for, and every malformed piece lies outside
ASCII. Two kinds of bytes start a piece whatever stands before them, so that reading can be resumed
there: a whole character at the start of a piece, and an ASCII byte anywhere.
-/

namespace MakeLint.Utf8

/-- Each byte lies in the range that is asked of it. -/
abbrev Fits (ranges : List Range) (bytes : Bytes) : Prop :=
  List.Forall₂ (fun r b => r.contains b = true) ranges bytes

/-- A first byte, and after it the bytes that it asks for. -/
def IsCharacter (bytes : Bytes) : Prop :=
  ∃ b ranges rest, bytes = b :: rest ∧ following? b = some ranges ∧ Fits ranges rest

/-- What has been read of a character is the beginning of one. -/
def Begun : Option Unfinished → Prop
  | none => True
  | some u => ∃ b done rest, u.read = b :: rest ∧
      following? b = some (done ++ u.next :: u.later) ∧ Fits done rest

def Piece.Sound : Piece → Prop
  | character bs => IsCharacter bs
  | malformed bs => bs ≠ [] ∧ ∀ b ∈ bs, 0x80 ≤ b

/-- The bytes of a piece that has not been given out yet. -/
def pending : Option Unfinished → Bytes
  | none => []
  | some u => u.read

/-! ### Ranges -/

/-- The rows of the table of first bytes, by number. -/
theorem following?_cases (b : UInt8) :
    b.toNat < 0x80 ∧ following? b = some [] ∨
    (0x80 ≤ b.toNat ∧ b.toNat < 0xc2 ∨ 0xf4 < b.toNat) ∧ following? b = none ∨
    (0xc2 ≤ b.toNat ∧ b.toNat < 0xe0) ∧ following? b = some [trail] ∨
    b.toNat = 0xe0 ∧ following? b = some [(0xa0, 0xbf), trail] ∨
    b.toNat = 0xed ∧ following? b = some [(0x80, 0x9f), trail] ∨
    (0xe0 < b.toNat ∧ b.toNat < 0xf0 ∧ b.toNat ≠ 0xed) ∧ following? b = some [trail, trail] ∨
    b.toNat = 0xf0 ∧ following? b = some [(0x90, 0xbf), trail, trail] ∨
    (0xf0 < b.toNat ∧ b.toNat < 0xf4) ∧ following? b = some [trail, trail, trail] ∨
    b.toNat = 0xf4 ∧ following? b = some [(0x80, 0x8f), trail, trail] := by
  have hrow : b.toNat < 0x80 ∨ (0x80 ≤ b.toNat ∧ b.toNat < 0xc2) ∨
      (0xc2 ≤ b.toNat ∧ b.toNat < 0xe0) ∨ b.toNat = 0xe0 ∨ b.toNat = 0xed ∨
      (0xe0 < b.toNat ∧ b.toNat < 0xf0 ∧ b.toNat ≠ 0xed) ∨ b.toNat = 0xf0 ∨
      (0xf0 < b.toNat ∧ b.toNat < 0xf4) ∨ b.toNat = 0xf4 ∨ 0xf4 < b.toNat := by
    omega
  simp only [following?, UInt8.lt_iff_toNat_lt, ← UInt8.toNat_inj, UInt8.reduceToNat]
  rcases hrow with h | h | h | h | h | h | h | h | h | h
  all_goals grind

/-- What holds of the bytes that a first byte asks for, row by row. -/
theorem exists_ranges_iff (a : UInt8) (P : List Range → Prop) :
    (∃ ranges ∈ following? a, P ranges) ↔
      a.toNat < 0x80 ∧ P [] ∨
      (0xc2 ≤ a.toNat ∧ a.toNat < 0xe0) ∧ P [trail] ∨
      a.toNat = 0xe0 ∧ P [(0xa0, 0xbf), trail] ∨
      a.toNat = 0xed ∧ P [(0x80, 0x9f), trail] ∨
      (0xe0 < a.toNat ∧ a.toNat < 0xf0 ∧ a.toNat ≠ 0xed) ∧ P [trail, trail] ∨
      a.toNat = 0xf0 ∧ P [(0x90, 0xbf), trail, trail] ∨
      (0xf0 < a.toNat ∧ a.toNat < 0xf4) ∧ P [trail, trail, trail] ∨
      a.toNat = 0xf4 ∧ P [(0x80, 0x8f), trail, trail] := by
  have hsome (x : List Range) : (∃ ranges ∈ some x, P ranges) ↔ P x := by simp
  have hnone : (∃ ranges ∈ (none : Option (List Range)), P ranges) ↔ False := by simp
  rcases following?_cases a with
    ⟨h, ha⟩ | ⟨h, ha⟩ | ⟨h, ha⟩ | ⟨h, ha⟩ | ⟨h, ha⟩ | ⟨h, ha⟩ | ⟨h, ha⟩ | ⟨h, ha⟩ | ⟨h, ha⟩
  all_goals simp only [ha, hsome, hnone]
  all_goals grind

theorem following?_ascii {b : UInt8} (hb : b < 0x80) : following? b = some [] := by
  rw [following?, if_pos hb]

theorem le_of_following? {b : UInt8} (h : following? b ≠ some []) : 0x80 ≤ b := by
  by_contra hb
  exact h (following?_ascii (UInt8.not_le.mp hb))

/-- Every byte that is asked for lies outside ASCII. -/
theorem le_of_mem_following? {b : UInt8} {ranges : List Range} (h : following? b = some ranges)
    {r : Range} (hr : r ∈ ranges) : 0x80 ≤ r.1 := by
  have hrow : ∃ ranges ∈ following? b, r ∈ ranges := ⟨ranges, h, hr⟩
  rw [exists_ranges_iff] at hrow
  simp only [List.mem_cons, List.not_mem_nil, or_false, and_false, false_or, trail] at hrow
  grind

theorem le_of_contains {r : Range} {b : UInt8} (hr : 0x80 ≤ r.1) (hb : r.contains b = true) :
    0x80 ≤ b := by
  simp only [Range.contains, Bool.and_eq_true, decide_eq_true_eq] at hb
  exact UInt8.le_trans hr hb.1

theorem Fits.le {ranges : List Range} {bytes : Bytes} (h : Fits ranges bytes)
    (hranges : ∀ r ∈ ranges, 0x80 ≤ r.1) : ∀ b ∈ bytes, 0x80 ≤ b := by
  induction h with
  | nil => simp
  | cons hb _ ih =>
    intro c hc
    rcases List.mem_cons.mp hc with rfl | hc
    · exact le_of_contains (hranges _ List.mem_cons_self) hb
    · exact ih (fun r hr => hranges r (List.mem_cons_of_mem _ hr)) c hc

/-- A character is one ASCII byte, or has none. -/
theorem IsCharacter.ascii_or {bytes : Bytes} (h : IsCharacter bytes) :
    (∃ b, b < 0x80 ∧ bytes = [b]) ∨ (bytes ≠ [] ∧ ∀ b ∈ bytes, 0x80 ≤ b) := by
  obtain ⟨b, ranges, rest, rfl, hb, hfits⟩ := h
  by_cases hascii : b < 0x80
  · rw [following?_ascii hascii] at hb
    obtain rfl := Option.some.inj hb
    obtain rfl := List.forall₂_nil_left_iff.mp hfits
    exact .inl ⟨b, hascii, rfl⟩
  · refine .inr ⟨List.cons_ne_nil _ _, fun c hc => ?_⟩
    rcases List.mem_cons.mp hc with rfl | hc
    · exact UInt8.not_lt.mp hascii
    · exact hfits.le (fun r hr => le_of_mem_following? hb hr) c hc

theorem isCharacter_replacement : IsCharacter Piece.replacement :=
  ⟨0xef, [trail, trail], [0xbf, 0xbd], rfl, by decide, .cons (by decide) (.cons (by decide) .nil)⟩

/-! ### What the reader gives out -/

theorem Begun.le {u : Unfinished} (h : Begun (some u)) :
    (u.read ≠ [] ∧ ∀ b ∈ u.read, 0x80 ≤ b) ∧ 0x80 ≤ u.next.1 := by
  obtain ⟨b, done, rest, hread, hb, hfits⟩ := h
  have hranges : ∀ r ∈ done ++ u.next :: u.later, 0x80 ≤ r.1 :=
    fun r hr => le_of_mem_following? hb hr
  refine ⟨⟨by simp [hread], fun c hc => ?_⟩, hranges _ (by simp)⟩
  rw [hread] at hc
  rcases List.mem_cons.mp hc with rfl | hc
  · apply le_of_following?
    rw [hb]
    simp
  · exact hfits.le (fun r hr => hranges r (List.mem_append_left _ hr)) c hc

theorem start_sound (b : UInt8) :
    (∀ p ∈ (start b).1, p.Sound) ∧ Begun (start b).2 := by
  unfold start
  split
  · next h =>
    have hb : 0x80 ≤ b := le_of_following? (by simp [h])
    simp [Piece.Sound, Begun, hb]
  · next h =>
    have hchar : IsCharacter [b] := ⟨b, [], [], rfl, h, .nil⟩
    simp [Piece.Sound, Begun, hchar]
  · next next later h => exact ⟨by simp, b, [], [], rfl, h, .nil⟩

theorem step_sound {state : Option Unfinished} (h : Begun state) (b : UInt8) :
    (∀ p ∈ (step state b).1, p.Sound) ∧ Begun (step state b).2 := by
  match state with
  | none => exact start_sound b
  | some u =>
    obtain ⟨a, done, rest, hread, ha, hfits⟩ := id h
    simp only [step]
    split
    · next hb =>
      have hmore : Fits (done ++ [u.next]) (rest ++ [b]) := List.rel_append hfits (.cons hb .nil)
      split
      · next hlater =>
        have hchar : IsCharacter (u.read ++ [b]) :=
          ⟨a, done ++ [u.next], rest ++ [b], by simp [hread], by rw [ha, hlater], hmore⟩
        simp [Piece.Sound, Begun, hchar]
      · next next later hlater =>
        exact ⟨by simp, a, done ++ [u.next], rest ++ [b], by simp [hread], by simp [ha, hlater],
          hmore⟩
    · obtain ⟨hpieces, hstate⟩ := start_sound b
      refine ⟨fun p hp => ?_, hstate⟩
      rcases List.mem_cons.mp hp with rfl | hp
      · exact h.le.1
      · exact hpieces p hp

theorem scan_sound {state : Option Unfinished} (h : Begun state) (bytes : Bytes) :
    ∀ p ∈ scan state bytes, p.Sound := by
  induction bytes generalizing state with
  | nil =>
    intro p hp
    match state with
    | none => simp [scan, flush] at hp
    | some u =>
      obtain rfl : p = .malformed u.read := by simpa [scan, flush] using hp
      exact h.le.1
  | cons b bytes ih =>
    obtain ⟨hpieces, hstate⟩ := step_sound h b
    intro p hp
    rcases List.mem_append.mp hp with hp | hp
    · exact hpieces p hp
    · exact ih hstate p hp

theorem pieces_sound (bytes : Bytes) : ∀ p ∈ pieces bytes, p.Sound :=
  scan_sound (show Begun none from trivial) bytes

theorem start_bytes (b : UInt8) :
    (start b).1.flatMap Piece.bytes ++ pending (start b).2 = [b] := by
  unfold start
  split <;> rfl

theorem step_bytes (state : Option Unfinished) (b : UInt8) :
    (step state b).1.flatMap Piece.bytes ++ pending (step state b).2 = pending state ++ [b] := by
  match state with
  | none => exact start_bytes b
  | some u =>
    simp only [step]
    split
    · split <;> simp [Piece.bytes, pending]
    · rw [List.flatMap_cons, List.append_assoc, start_bytes]
      rfl

theorem scan_bytes (state : Option Unfinished) (bytes : Bytes) :
    (scan state bytes).flatMap Piece.bytes = pending state ++ bytes := by
  induction bytes generalizing state with
  | nil => cases state <;> simp [scan, flush, pending, Piece.bytes]
  | cons b bytes ih =>
    rw [scan, List.flatMap_append, ih, ← List.append_assoc, step_bytes]
    simp

/-- Reading loses nothing and adds nothing. -/
theorem flatMap_bytes_pieces (bytes : Bytes) : (pieces bytes).flatMap Piece.bytes = bytes :=
  scan_bytes none bytes

/-! ### Where reading can be resumed -/

theorem step_ascii {state : Option Unfinished} (h : Begun state) {b : UInt8} (hb : b < 0x80) :
    step state b = (flush state ++ [.character [b]], none) := by
  have hstart : start b = ([.character [b]], none) := by
    rw [start, following?_ascii hb]
  match state with
  | none => exact hstart
  | some u =>
    have hnot : ¬ u.next.contains b = true := fun hc =>
      absurd (le_of_contains h.le.2 hc) (UInt8.not_le.mpr hb)
    simp [step, hnot, hstart, flush]

theorem scan_append_ascii {state : Option Unfinished} (h : Begun state) (xs : Bytes) {b : UInt8}
    (hb : b < 0x80) (ys : Bytes) :
    scan state (xs ++ b :: ys) = scan state xs ++ .character [b] :: pieces ys := by
  induction xs generalizing state with
  | nil => simp [scan, step_ascii h hb, pieces]
  | cons x xs ih =>
    rw [List.cons_append, scan, ih (step_sound h x).2, scan, List.append_assoc]

theorem pieces_append_ascii (xs : Bytes) {b : UInt8} (hb : b < 0x80) (ys : Bytes) :
    pieces (xs ++ b :: ys) = pieces xs ++ .character [b] :: pieces ys :=
  scan_append_ascii (show Begun none from trivial) xs hb ys

theorem scan_fits (u : Unfinished) {rest : Bytes} (h : Fits (u.next :: u.later) rest) (ys : Bytes) :
    scan (some u) (rest ++ ys) = .character (u.read ++ rest) :: pieces ys := by
  induction rest generalizing u with
  | nil => cases h
  | cons b rest ih =>
    obtain ⟨hb, hrest⟩ := List.forall₂_cons.mp h
    match hlater : u.later with
    | [] =>
      rw [hlater] at hrest
      obtain rfl := List.forall₂_nil_left_iff.mp hrest
      simp [scan, step, hb, hlater, pieces]
    | next :: later =>
      rw [hlater] at hrest
      have hnext := ih ⟨u.read ++ [b], next, later⟩ hrest
      simp only [List.cons_append, scan, step, hb, hlater, if_true, List.nil_append, hnext]
      simp

theorem pieces_append_character {c : Bytes} (h : IsCharacter c) (ys : Bytes) :
    pieces (c ++ ys) = .character c :: pieces ys := by
  obtain ⟨b, ranges, rest, rfl, hb, hfits⟩ := h
  cases ranges with
  | nil =>
    obtain rfl := List.forall₂_nil_left_iff.mp hfits
    simp [pieces, scan, step, start, hb]
  | cons next later =>
    have hrest := scan_fits ⟨[b], next, later⟩ hfits ys
    simpa [pieces, scan, step, start, hb] using hrest

end MakeLint.Utf8
