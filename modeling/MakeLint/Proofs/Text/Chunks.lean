import MakeLint.Text.Chunks
import MakeLint.Proofs.Text.Encode
import MakeLint.Proofs.Text.Repair
import Mathlib.Data.List.Infix
/-!
# Chunks of UTF-8, by their definition

How bytes fall into chunks can be said without a reader. Where no character stands, the malformed piece
is a maximal subpart: as long as some character could begin with it, and one byte at least. A chunk is
a text with the maximal subpart after it. There is exactly one way to cut bytes like that, and it is
the reader's; since what follows a maximal subpart is cut as if nothing stood before it, bytes may be
decoded chunk by chunk and each chunk replaced before the next is read.
-/

namespace MakeLint.Utf8

/-- Some character begins with these bytes. -/
def Begins (bytes : Bytes) : Prop :=
  ∃ c : Char, bytes <+: String.utf8EncodeChar c

/-- The bytes that are malformed as one where no character stands: the longest that some character
begins with, or a single byte. -/
structure MaximalSubpart (part rest : Bytes) : Prop where
  malformed : ∀ c : Char, ¬ String.utf8EncodeChar c <+: part ++ rest
  nonempty : part ≠ []
  begins : Begins part ∨ part.length = 1
  longest : ∀ b ∈ rest.head?, ¬ Begins (part ++ [b])

/-- The bytes are cut into these chunks. -/
inductive ChunkedAs : Bytes → List Chunk → Prop
  | nil : ChunkedAs [] []
  | text {text : List Char} : text ≠ [] → ChunkedAs (encode text) [⟨encode text, []⟩]
  | malformed {text : List Char} {part rest : Bytes} {chunks : List Chunk} :
      MaximalSubpart part rest → ChunkedAs rest chunks →
        ChunkedAs (encode text ++ (part ++ rest)) (⟨encode text, part⟩ :: chunks)

/-! ### Beginnings of characters -/

theorem Fits.split {ranges : List Range} {xs ys : Bytes} (h : Fits ranges (xs ++ ys)) :
    ∃ done later, ranges = done ++ later ∧ Fits done xs ∧ Fits later ys :=
  ⟨ranges.take xs.length, ranges.drop xs.length, (List.take_append_drop _ _).symm,
    List.forall₂_take_append ranges xs ys h, List.forall₂_drop_append ranges xs ys h⟩

/-- No first byte asks for a byte that does not exist. -/
theorem contains_fst_of_mem_following? {a : UInt8} {ranges : List Range}
    (h : following? a = some ranges) {r : Range} (hr : r ∈ ranges) : r.contains r.1 = true := by
  have hrow : ∃ ranges ∈ following? a, r ∈ ranges := ⟨ranges, h, hr⟩
  rw [exists_ranges_iff] at hrow
  simp only [List.mem_cons, List.not_mem_nil, or_false, and_false, false_or, trail] at hrow
  grind [Range.contains]

theorem fits_map_fst {ranges : List Range} (h : ∀ r ∈ ranges, r.contains r.1 = true) :
    Fits ranges (ranges.map Prod.fst) := by
  rw [Fits, List.forall₂_map_right_iff, List.forall₂_same]
  exact h

theorem begins_cons_iff (a : UInt8) (more : Bytes) :
    Begins (a :: more) ↔ ∃ done later, following? a = some (done ++ later) ∧ Fits done more := by
  constructor
  · rintro ⟨c, tail, hc⟩
    have hchar := isCharacter_encode c
    rw [← hc, List.cons_append, isCharacter_cons] at hchar
    obtain ⟨ranges, ha, hfits⟩ := hchar
    obtain ⟨done, later, rfl, hdone, -⟩ := hfits.split
    exact ⟨done, later, ha, hdone⟩
  · rintro ⟨done, later, ha, hfits⟩
    have hlater : Fits later (later.map Prod.fst) := fits_map_fst fun r hr =>
      contains_fst_of_mem_following? ha (List.mem_append_right done hr)
    have hchar : IsCharacter (a :: (more ++ later.map Prod.fst)) :=
      ⟨a, done ++ later, _, rfl, ha, List.rel_append hfits hlater⟩
    exact ⟨_, later.map Prod.fst, hchar.eq_encode⟩

/-- A character at the start of bytes is its first byte with the bytes that it asks for. -/
theorem encodeChar_prefix_cons {c : Char} {a : UInt8} {bytes : Bytes}
    (h : String.utf8EncodeChar c <+: a :: bytes) :
    ∃ ranges good, following? a = some ranges ∧ Fits ranges good ∧ good <+: bytes := by
  obtain ⟨b, ranges, good, heq, hb, hfits⟩ := isCharacter_encode c
  rw [heq, List.cons_prefix_cons] at h
  obtain ⟨rfl, hgood⟩ := h
  exact ⟨ranges, good, hb, hfits, hgood⟩

/-! ### Maximal subparts -/

/-- A maximal subpart by the table: a byte that starts no character, or the beginning of one whose next
byte is out of range or missing. -/
theorem maximalSubpart_cons_iff (a : UInt8) (more rest : Bytes) :
    MaximalSubpart (a :: more) rest ↔
      following? a = none ∧ more = [] ∨
      ∃ done next later, following? a = some (done ++ next :: later) ∧ Fits done more ∧
        ∀ b ∈ rest.head?, ¬ next.contains b = true := by
  constructor
  · intro h
    cases ha : following? a with
    | none =>
      left
      have hnot : ¬ Begins (a :: more) := by simp [begins_cons_iff, ha]
      have hlength := h.begins.resolve_left hnot
      exact ⟨rfl, List.length_eq_zero_iff.mp (by simpa using hlength)⟩
    | some ranges =>
      right
      have hbegins : Begins (a :: more) := by
        rcases h.begins with hbegins | hlength
        · exact hbegins
        · obtain rfl : more = [] := List.length_eq_zero_iff.mp (by simpa using hlength)
          exact (begins_cons_iff a []).mpr ⟨[], ranges, ha, .nil⟩
      obtain ⟨done, later, ha', hfits⟩ := (begins_cons_iff a more).mp hbegins
      rw [ha] at ha'
      obtain rfl := Option.some.inj ha'
      cases later with
      | nil =>
        have hchar : IsCharacter (a :: more) := ⟨a, done, more, rfl, by simpa using ha, hfits⟩
        refine absurd ?_ (h.malformed (Char.ofNat (codePoint (a :: more))))
        rw [← hchar.eq_encode]
        exact List.prefix_append _ _
      | cons next later =>
        refine ⟨done, next, later, rfl, hfits, fun b hb hcontains => h.longest b hb ?_⟩
        rw [List.cons_append, begins_cons_iff]
        exact ⟨done ++ [next], later, by simpa using ha, List.rel_append hfits (.cons hcontains .nil)⟩
  · rintro (⟨ha, rfl⟩ | ⟨done, next, later, ha, hfits, hstuck⟩)
    · refine ⟨fun c hc => ?_, by simp, .inr rfl, fun b _ hbegins => ?_⟩
      · obtain ⟨ranges, good, ha', -⟩ := encodeChar_prefix_cons hc
        rw [ha] at ha'
        cases ha'
      · rw [List.cons_append, begins_cons_iff] at hbegins
        obtain ⟨_, _, ha', -⟩ := hbegins
        rw [ha] at ha'
        cases ha'
    · have hlength : done.length = more.length := hfits.length_eq
      refine ⟨fun c hc => ?_, by simp, .inl ((begins_cons_iff a more).mpr ⟨done, _, ha, hfits⟩),
        fun b hb hbegins => ?_⟩
      · obtain ⟨ranges, good, ha', hgood, hprefix⟩ := encodeChar_prefix_cons hc
        rw [ha] at ha'
        obtain rfl := Option.some.inj ha'
        -- what the next range takes would be the first byte of the rest
        have hlater := List.forall₂_drop done.length hgood
        have hdrop : good.drop done.length <+: rest := by
          have hboth := List.IsPrefix.drop hprefix done.length
          rwa [hlength, List.append_eq, List.drop_left, ← hlength] at hboth
        rw [List.drop_left] at hlater
        obtain ⟨b, others, hb, -, hgoodLater⟩ := List.forall₂_cons_left_iff.mp hlater
        rw [hgoodLater] at hdrop
        obtain ⟨tail, rfl⟩ := hdrop
        exact hstuck b rfl hb
      · rw [List.cons_append, begins_cons_iff] at hbegins
        obtain ⟨_, later', ha', hfits'⟩ := hbegins
        obtain ⟨done', last, rfl, hdone', hlast⟩ := hfits'.split
        obtain ⟨next', _, hnext', hnil, rfl⟩ := List.forall₂_cons_right_iff.mp hlast
        obtain rfl := List.forall₂_nil_right_iff.mp hnil
        rw [ha, List.append_assoc] at ha'
        obtain ⟨-, hsame⟩ := List.append_inj (Option.some.inj ha') (hlength.trans hdone'.length_eq.symm)
        obtain ⟨rfl, -⟩ := List.cons.inj hsame
        exact hstuck b hb hnext'

theorem scan_begins (read : Bytes) {more : Bytes} {r next : Range} {ranges done later : List Range}
    (h : r :: ranges = done ++ next :: later) (hfits : Fits done more) (rest : Bytes) :
    scan (some ⟨read, r, ranges⟩) (more ++ rest) = scan (some ⟨read ++ more, next, later⟩) rest := by
  induction hfits generalizing read r ranges with
  | nil =>
    obtain ⟨rfl, rfl⟩ := List.cons.inj h
    simp
  | @cons r' b done more hb _ ih =>
    rw [List.cons_append] at h
    obtain ⟨rfl, rfl⟩ := List.cons.inj h
    obtain ⟨first, others, hmore⟩ : ∃ first others, done ++ next :: later = first :: others :=
      List.exists_cons_of_ne_nil (by simp)
    have hrest := ih (read ++ [b]) hmore.symm
    simp only [List.cons_append, scan, step, hb, hmore, if_true, List.nil_append, hrest]
    rw [List.append_assoc, List.singleton_append]

/-- Reading goes on behind a maximal subpart as if nothing stood before. -/
theorem pieces_maximalSubpart {part rest : Bytes} (h : MaximalSubpart part rest) :
    pieces (part ++ rest) = .malformed part :: pieces rest := by
  match part with
  | [] => exact absurd rfl h.nonempty
  | a :: more =>
    rcases (maximalSubpart_cons_iff a more rest).mp h with
      ⟨ha, rfl⟩ | ⟨done, next, later, ha, hfits, hstuck⟩
    · simp [pieces, scan, step, start, ha]
    · obtain ⟨r, ranges, hranges⟩ : ∃ r ranges, done ++ next :: later = r :: ranges :=
        List.exists_cons_of_ne_nil (by simp)
      rw [hranges] at ha
      have hread := scan_begins [a] hranges.symm hfits rest
      have hstart : pieces (a :: more ++ rest) = scan (some ⟨[a], r, ranges⟩) (more ++ rest) := by
        simp [pieces, scan, step, start, ha]
      rw [hstart, hread]
      cases rest with
      | nil => rfl
      | cons b rest =>
        have hb := hstuck b rfl
        simp [pieces, scan, step, hb]

theorem MaximalSubpart.length_le {part rest : Bytes} (h : MaximalSubpart part rest) :
    part.length ≤ 3 := by
  rcases h.begins with ⟨c, tail, hc⟩ | hlength
  · have hchar := (isCharacter_encode c).length_le
    have htail : tail ≠ [] := by
      rintro rfl
      rw [List.append_nil] at hc
      exact h.malformed c (hc ▸ List.prefix_append part rest)
    have hpos := List.length_pos_iff.mpr htail
    rw [← hc, List.length_append] at hchar
    omega
  · omega

/-! ### The first piece -/

/-- As much of the bytes as fits the ranges: all that they ask for, or up to a byte out of range. -/
theorem fits_or_stuck (ranges : List Range) (bytes : Bytes) :
    (∃ good rest, bytes = good ++ rest ∧ Fits ranges good) ∨
      ∃ done next later good rest, ranges = done ++ next :: later ∧ bytes = good ++ rest ∧
        Fits done good ∧ ∀ b ∈ rest.head?, ¬ next.contains b = true := by
  induction ranges generalizing bytes with
  | nil => exact .inl ⟨[], bytes, rfl, .nil⟩
  | cons r ranges ih =>
    cases bytes with
    | nil => exact .inr ⟨[], r, ranges, [], [], rfl, rfl, .nil, by simp⟩
    | cons b bytes =>
      by_cases hb : r.contains b = true
      · rcases ih bytes with ⟨good, rest, rfl, hfits⟩ |
          ⟨done, next, later, good, rest, rfl, rfl, hfits, hstuck⟩
        · exact .inl ⟨b :: good, rest, rfl, .cons hb hfits⟩
        · exact .inr ⟨r :: done, next, later, b :: good, rest, rfl, rfl, .cons hb hfits, hstuck⟩
      · exact .inr ⟨[], r, ranges, [], b :: bytes, rfl, rfl, .nil, by simpa using hb⟩

theorem exists_first {bytes : Bytes} (h : bytes ≠ []) :
    (∃ c rest, bytes = String.utf8EncodeChar c ++ rest) ∨
      ∃ part rest, bytes = part ++ rest ∧ MaximalSubpart part rest := by
  obtain ⟨a, bytes, rfl⟩ := List.exists_cons_of_ne_nil h
  cases ha : following? a with
  | none => exact .inr ⟨[a], bytes, rfl, (maximalSubpart_cons_iff a [] bytes).mpr (.inl ⟨ha, rfl⟩)⟩
  | some ranges =>
    rcases fits_or_stuck ranges bytes with ⟨good, rest, rfl, hfits⟩ |
      ⟨done, next, later, good, rest, rfl, rfl, hfits, hstuck⟩
    · left
      have hchar : IsCharacter (a :: good) := ⟨a, ranges, good, rfl, ha, hfits⟩
      exact ⟨_, rest, congrArg (· ++ rest) hchar.eq_encode⟩
    · right
      exact ⟨a :: good, rest, rfl, (maximalSubpart_cons_iff a good rest).mpr
        (.inr ⟨done, next, later, ha, hfits, hstuck⟩)⟩

/-! ### The chunks -/

theorem encode_cons (c : Char) (text : List Char) :
    encode (c :: text) = String.utf8EncodeChar c ++ encode text :=
  List.flatMap_cons

theorem encode_ne_nil {text : List Char} (h : text ≠ []) : encode text ≠ [] := by
  obtain ⟨c, text, rfl⟩ := List.exists_cons_of_ne_nil h
  obtain ⟨a, _, rest, hc, -⟩ := isCharacter_encode c
  rw [encode_cons, hc]
  exact List.cons_ne_nil _ _

theorem ChunkedAs.prepend {c : Char} {rest : Bytes} {cs : List Chunk} (h : ChunkedAs rest cs) :
    ChunkedAs (String.utf8EncodeChar c ++ rest) (Chunk.prepend (String.utf8EncodeChar c) cs) := by
  cases h with
  | nil =>
    have hone := ChunkedAs.text (List.cons_ne_nil c [])
    simpa [encode, Chunk.prepend] using hone
  | @text text _ =>
    have hmore := ChunkedAs.text (List.cons_ne_nil c text)
    rwa [encode_cons] at hmore
  | @malformed text part rest cs hpart hrest =>
    have hmore : ChunkedAs (encode (c :: text) ++ (part ++ rest))
        (⟨encode (c :: text), part⟩ :: cs) := .malformed hpart hrest
    rwa [encode_cons, List.append_assoc] at hmore

theorem chunks_append_encodeChar (c : Char) (rest : Bytes) :
    chunks (String.utf8EncodeChar c ++ rest) = Chunk.prepend (String.utf8EncodeChar c) (chunks rest) := by
  rw [chunks, pieces_append_character (isCharacter_encode c)]
  rfl

theorem chunks_maximalSubpart {part rest : Bytes} (h : MaximalSubpart part rest) :
    chunks (part ++ rest) = ⟨[], part⟩ :: chunks rest := by
  rw [chunks, pieces_maximalSubpart h]
  rfl

theorem chunks_encode {text : List Char} (h : text ≠ []) :
    chunks (encode text) = [⟨encode text, []⟩] := by
  induction text with
  | nil => exact absurd rfl h
  | cons c text ih =>
    rw [encode_cons, chunks_append_encodeChar]
    by_cases htext : text = []
    · subst htext
      simp [encode, chunks, pieces, scan, flush, Chunk.ofPieces, Chunk.prepend]
    · rw [ih htext]
      rfl

theorem chunks_encode_append (text : List Char) {part rest : Bytes} (h : MaximalSubpart part rest) :
    chunks (encode text ++ (part ++ rest)) = ⟨encode text, part⟩ :: chunks rest := by
  induction text with
  | nil => exact chunks_maximalSubpart h
  | cons c text ih =>
    rw [encode_cons, List.append_assoc, chunks_append_encodeChar, ih]
    rfl

/-- The reader cuts bytes as the definition asks. -/
theorem chunkedAs_chunks (bytes : Bytes) : ChunkedAs bytes (chunks bytes) := by
  by_cases hbytes : bytes = []
  · subst hbytes
    exact .nil
  · rcases exists_first hbytes with ⟨c, rest, hsplit⟩ | ⟨part, rest, hsplit, hpart⟩
    · rw [hsplit, chunks_append_encodeChar]
      exact (chunkedAs_chunks rest).prepend
    · rw [hsplit, chunks_maximalSubpart hpart]
      have hchunks : ChunkedAs (encode [] ++ (part ++ rest)) (⟨encode [], part⟩ :: chunks rest) :=
        .malformed hpart (chunkedAs_chunks rest)
      exact hchunks
termination_by bytes.length
decreasing_by
  · obtain ⟨a, _, more, hc, -⟩ := isCharacter_encode c
    rw [hsplit, hc, List.length_append, List.length_cons]
    omega
  · have hpos := List.length_pos_iff.mpr hpart.nonempty
    rw [hsplit, List.length_append]
    omega

/-- The reader's chunks are those of the definition, and there are no others. -/
theorem chunkedAs_iff (bytes : Bytes) (cs : List Chunk) : ChunkedAs bytes cs ↔ cs = chunks bytes := by
  constructor
  · intro h
    induction h with
    | nil => rfl
    | text htext => exact (chunks_encode htext).symm
    | malformed hpart _ ih => rw [chunks_encode_append _ hpart, ih]
  · rintro rfl
    exact chunkedAs_chunks bytes

/-- The first chunk is all of the bytes, or a text with the maximal subpart after it. -/
theorem first_chunk {bytes : Bytes} {c : Chunk} (h : (chunks bytes).head? = some c) :
    (c.isMalformed = false ∧ ∃ text, text ≠ [] ∧ c.valid = encode text ∧ bytes = c.valid) ∨
      (c.isMalformed = true ∧ ∃ text rest, c.valid = encode text ∧
        MaximalSubpart c.invalid rest ∧ bytes = c.valid ++ (c.invalid ++ rest)) := by
  have hchunks := chunkedAs_chunks bytes
  generalize chunks bytes = cs at h hchunks
  cases hchunks with
  | nil => cases h
  | @text text htext =>
    obtain rfl := Option.some.inj h
    exact .inl ⟨rfl, text, htext, rfl, rfl⟩
  | @malformed text part rest cs hpart _ =>
    obtain rfl := Option.some.inj h
    refine .inr ⟨?_, text, rest, rfl, hpart, rfl⟩
    simp [Chunk.isMalformed, hpart.nonempty]

/-! ### The repair, chunk by chunk -/

theorem repair_encode_append (text : List Char) (rest : Bytes) :
    repair (encode text ++ rest) = encode text ++ repair rest := by
  induction text with
  | nil => rfl
  | cons c text ih =>
    rw [encode_cons, List.append_assoc, repair, pieces_append_character (isCharacter_encode c),
      List.flatMap_cons, ← repair, ih, List.append_assoc]
    rfl

theorem malformedCount_encode_append (text : List Char) (rest : Bytes) :
    malformedCount (encode text ++ rest) = malformedCount rest := by
  induction text with
  | nil => rfl
  | cons c text ih =>
    rw [encode_cons, List.append_assoc, malformedCount,
      pieces_append_character (isCharacter_encode c), List.countP_cons, ← malformedCount, ih]
    rfl

theorem repair_maximalSubpart {part rest : Bytes} (h : MaximalSubpart part rest) :
    repair (part ++ rest) = Piece.replacement ++ repair rest := by
  rw [repair, pieces_maximalSubpart h]
  rfl

theorem malformedCount_maximalSubpart {part rest : Bytes} (h : MaximalSubpart part rest) :
    malformedCount (part ++ rest) = malformedCount rest + 1 := by
  rw [malformedCount, pieces_maximalSubpart h, List.countP_cons]
  rfl

theorem isValid_encode (text : List Char) : isValid (encode text) = true :=
  (isValid_iff _).mpr ⟨text, rfl⟩

theorem ChunkedAs.repair_eq {bytes : Bytes} {cs : List Chunk} (h : ChunkedAs bytes cs) :
    repair bytes = cs.flatMap Chunk.repaired := by
  induction h with
  | nil => rfl
  | @text text _ => simp [repair_eq_self (isValid_encode text), Chunk.repaired, Chunk.isMalformed]
  | @malformed text part rest cs hpart _ ih =>
    have hchunk : Chunk.repaired ⟨encode text, part⟩ = encode text ++ Piece.replacement := by
      simp [Chunk.repaired, Chunk.isMalformed, hpart.nonempty]
    rw [repair_encode_append, repair_maximalSubpart hpart, ih, List.flatMap_cons, hchunk,
      List.append_assoc]

theorem ChunkedAs.malformedCount_eq {bytes : Bytes} {cs : List Chunk} (h : ChunkedAs bytes cs) :
    malformedCount bytes = cs.countP Chunk.isMalformed := by
  induction h with
  | nil => rfl
  | @text text _ =>
    have hcount := (malformedCount_eq_zero _).mpr (isValid_encode text)
    simpa [Chunk.isMalformed] using hcount
  | @malformed text part rest cs hpart _ ih =>
    have hchunk : Chunk.isMalformed ⟨encode text, part⟩ = true := by
      simp [Chunk.isMalformed, hpart.nonempty]
    rw [malformedCount_encode_append, malformedCount_maximalSubpart hpart, ih,
      List.countP_cons_of_pos hchunk]

/-- No malformed piece is longer than U+FFFD. -/
theorem length_le_length_repair (bytes : Bytes) : bytes.length ≤ (repair bytes).length := by
  obtain ⟨cs, h⟩ : ∃ cs, ChunkedAs bytes cs := ⟨_, chunkedAs_chunks bytes⟩
  induction h with
  | nil => exact Nat.zero_le _
  | @text text _ => rw [repair_eq_self (isValid_encode text)]
  | @malformed text part rest cs hpart _ ih =>
    have hlength := hpart.length_le
    have hreplacement : Piece.replacement.length = 3 := rfl
    rw [repair_encode_append, repair_maximalSubpart hpart]
    simp only [List.length_append, hreplacement]
    omega

theorem repair_eq_self_iff (bytes : Bytes) : repair bytes = bytes ↔ ∃ text, bytes = encode text := by
  rw [← isValid_iff]
  constructor
  · intro h
    rw [← h]
    exact isValid_repair bytes
  · exact repair_eq_self

/-! ### The columns, chunk by chunk -/

/-- The columns of the characters, and one for the malformed piece. -/
def Chunk.columns (c : Chunk) : Nat :=
  Columns.ofBytes c.valid + if c.isMalformed then 1 else 0

theorem columns_encode_append (text : List Char) (rest : Bytes) :
    Columns.ofBytes (encode text ++ rest) = Columns.ofBytes (encode text) + Columns.ofBytes rest := by
  induction text with
  | nil => exact (Nat.zero_add _).symm
  | cons c text ih =>
    have hfirst (more : Bytes) : Columns.ofBytes (String.utf8EncodeChar c ++ more) =
        Columns.ofPiece (.character (String.utf8EncodeChar c)) + Columns.ofBytes more := by
      rw [Columns.ofBytes, pieces_append_character (isCharacter_encode c)]
      rfl
    rw [encode_cons, List.append_assoc, hfirst, ih, hfirst, Nat.add_assoc]

theorem columns_maximalSubpart {part rest : Bytes} (h : MaximalSubpart part rest) :
    Columns.ofBytes (part ++ rest) = 1 + Columns.ofBytes rest := by
  rw [Columns.ofBytes, pieces_maximalSubpart h]
  rfl

theorem ChunkedAs.columns_eq {bytes : Bytes} {cs : List Chunk} (h : ChunkedAs bytes cs) :
    Columns.ofBytes bytes = total Chunk.columns cs := by
  induction h with
  | nil => rfl
  | @text text _ => rfl
  | @malformed text part rest cs hpart _ ih =>
    have hchunk : Chunk.columns ⟨encode text, part⟩ = Columns.ofBytes (encode text) + 1 := by
      simp [Chunk.columns, Chunk.isMalformed, hpart.nonempty]
    rw [columns_encode_append, columns_maximalSubpart hpart, ih, total_cons, hchunk, Nat.add_assoc]

end MakeLint.Utf8
