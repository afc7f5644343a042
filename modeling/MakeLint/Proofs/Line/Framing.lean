import MakeLint.Line.Framing
import Mathlib.Data.List.Basic
/-!
# Framed lines

Where the bytes are cut into lines. A newline ends a line wherever it stands, so that what follows it
is framed as if nothing stood before it, except for the numbers of the lines and for which of them is
the last.
-/

namespace MakeLint

namespace Bytes

/-- The segments of the bytes that a newline ends. -/
def lines (bytes : Bytes) : List Bytes :=
  (bytes.splitOn Byte.newline).dropLast

/-- No byte is left over after the last newline. -/
def Terminated (bytes : Bytes) : Prop :=
  bytes = [] ∨ bytes.getLast? = some Byte.newline

theorem Terminated.cases {bytes : Bytes} (h : Terminated bytes) :
    bytes = [] ∨ ∃ xs, bytes = xs ++ [Byte.newline] :=
  h.imp id List.getLast?_eq_some_iff.mp

theorem splitOn_cons (b : UInt8) (bytes : Bytes) :
    (b :: bytes).splitOn Byte.newline =
      if b = Byte.newline then [] :: bytes.splitOn Byte.newline
      else (bytes.splitOn Byte.newline).modifyHead (b :: ·) := by
  rw [List.splitOn_cons_eq_if_modifyHead]
  simp only [beq_iff_eq]

theorem segments_append_newline (xs ys : Bytes) :
    segments (xs ++ Byte.newline :: ys) = xs.splitOn Byte.newline ++ segments ys := by
  induction xs with
  | nil => simp [segments]
  | cons x xs ih =>
    rw [List.cons_append, segments, ih, splitOn_cons]
    split
    · rfl
    · cases hsplit : xs.splitOn Byte.newline with
      | nil => exact absurd hsplit (List.splitOn_ne_nil _ _)
      | cons s more => rfl

theorem lines_append_newline (xs : Bytes) :
    lines (xs ++ [Byte.newline]) = xs.splitOn Byte.newline := by
  rw [lines, List.splitOn_append_cons_self]
  simp

theorem lines_nil : lines [] = [] :=
  rfl

theorem Terminated.segments_eq {bytes : Bytes} (h : Terminated bytes) :
    segments bytes = lines bytes := by
  rcases h.cases with rfl | ⟨xs, rfl⟩
  · rfl
  · rw [segments_append_newline, lines_append_newline]
    simp [segments]

theorem Terminated.segments_append {xs : Bytes} (h : Terminated xs) (ys : Bytes) :
    segments (xs ++ ys) = lines xs ++ segments ys := by
  rcases h.cases with rfl | ⟨xs, rfl⟩
  · rfl
  · rw [lines_append_newline, List.append_assoc, List.singleton_append, segments_append_newline]

/-! ### Segments -/

theorem length_segments_cons (b : UInt8) (bytes : Bytes) :
    (segments (b :: bytes)).length =
      if b = Byte.newline then (segments bytes).length + 1 else max 1 (segments bytes).length := by
  rw [segments]
  split
  · rfl
  · cases segments bytes <;> simp

theorem segments_eq_nil_iff (bytes : Bytes) : segments bytes = [] ↔ bytes = [] := by
  cases bytes with
  | nil => exact iff_of_true rfl rfl
  | cons b bytes =>
    refine iff_of_false ?_ (List.cons_ne_nil b bytes)
    rw [← List.length_eq_zero_iff, length_segments_cons]
    split <;> omega

/-- The segments are the pieces between the newlines, but for an empty piece at the end. -/
theorem segments_isPrefix (bytes : Bytes) : segments bytes <+: bytes.splitOn Byte.newline := by
  induction bytes with
  | nil => exact List.nil_prefix
  | cons b bytes ih =>
    rw [splitOn_cons, segments]
    split
    · exact (List.prefix_cons_inj _).mpr ih
    · obtain ⟨more, hmore⟩ := ih
      cases hsegments : segments bytes with
      | nil =>
        obtain rfl := (segments_eq_nil_iff bytes).mp hsegments
        exact List.prefix_rfl
      | cons s rest =>
        rw [← hmore, hsegments]
        exact ⟨more, rfl⟩

/-- A byte of a segment is a byte of the whole, and no newline. -/
theorem mem_of_mem_segments {bytes s : Bytes} (hs : s ∈ segments bytes) {b : UInt8} (hb : b ∈ s) :
    b ∈ bytes ∧ b ≠ Byte.newline := by
  induction bytes generalizing s b with
  | nil => cases hs
  | cons c bytes ih =>
    have hlater {t : Bytes} (ht : t ∈ segments bytes) (hbt : b ∈ t) :
        b ∈ c :: bytes ∧ b ≠ Byte.newline :=
      ⟨List.mem_cons_of_mem c (ih ht hbt).1, (ih ht hbt).2⟩
    rw [segments] at hs
    split at hs
    · rcases List.mem_cons.mp hs with rfl | hs
      · cases hb
      · exact hlater hs hb
    · next hc =>
      have hfirst : b = c → b ∈ c :: bytes ∧ b ≠ Byte.newline := by
        rintro rfl
        exact ⟨List.mem_cons_self, hc⟩
      cases hsegments : segments bytes with
      | nil =>
        simp only [hsegments, List.mem_singleton] at hs
        subst hs
        exact hfirst (List.mem_singleton.mp hb)
      | cons t more =>
        rw [hsegments] at hs hlater
        rcases List.mem_cons.mp hs with rfl | hs
        · rcases List.mem_cons.mp hb with rfl | hb
          · exact hfirst rfl
          · exact hlater List.mem_cons_self hb
        · exact hlater (List.mem_cons_of_mem t hs) hb

/-- Segments that are put together again, each with a newline, are cut where they were. -/
theorem segments_flatMap_newline {segs : List Bytes} (h : ∀ s ∈ segs, Byte.newline ∉ s) :
    segments (segs.flatMap (· ++ [Byte.newline])) = segs := by
  induction segs with
  | nil => rfl
  | cons s segs ih =>
    have hs : s.splitOn Byte.newline = [s] := List.splitOn_eq_singleton (h s List.mem_cons_self)
    have hrest := ih fun t ht => h t (List.mem_cons_of_mem s ht)
    rw [List.flatMap_cons, List.append_assoc, List.singleton_append, segments_append_newline, hs,
      hrest, List.singleton_append]

theorem terminated_flatMap_newline (segs : List Bytes) :
    Terminated (segs.flatMap (· ++ [Byte.newline])) := by
  rcases List.eq_nil_or_concat segs with rfl | ⟨init, last, rfl⟩
  · exact .inl rfl
  · right
    simp

end Bytes

namespace Line

open Bytes

/-! ### NUL bytes -/

theorem withoutNul_append (xs ys : Bytes) : withoutNul (xs ++ ys) = withoutNul xs ++ withoutNul ys :=
  List.map_append

theorem withoutNul_eq_self {bytes : Bytes} (h : Byte.nul ∉ bytes) : withoutNul bytes = bytes := by
  rw [withoutNul]
  conv_rhs => rw [← List.map_id bytes]
  apply List.map_congr_left
  intro b hb
  apply if_neg
  rintro rfl
  exact h hb

theorem nul_not_mem_withoutNul (bytes : Bytes) : Byte.nul ∉ withoutNul bytes := by
  intro h
  obtain ⟨b, -, hb⟩ := List.mem_map.mp h
  split at hb
  · cases hb
  · next hne => exact hne hb

theorem terminated_withoutNul {bytes : Bytes} (h : Terminated bytes) :
    Terminated (withoutNul bytes) := by
  rcases h.cases with rfl | ⟨xs, rfl⟩
  · exact .inl rfl
  · right
    rw [withoutNul_append]
    simp [withoutNul, Byte.newline, Byte.nul]

/-- Reading NUL bytes as spaces neither makes nor breaks a line. -/
theorem eq_newline_iff_of_withoutNul (b : UInt8) :
    (if b = Byte.nul then Byte.space else b) = Byte.newline ↔ b = Byte.newline := by
  by_cases h : b = Byte.nul
  · subst h
    decide
  · rw [if_neg h]

theorem splitOn_withoutNul (bytes : Bytes) :
    (withoutNul bytes).splitOn Byte.newline = (bytes.splitOn Byte.newline).map withoutNul := by
  induction bytes with
  | nil => rfl
  | cons b bytes ih =>
    change ((if b = Byte.nul then Byte.space else b) :: withoutNul bytes).splitOn Byte.newline = _
    rw [splitOn_cons, splitOn_cons, ih]
    simp only [eq_newline_iff_of_withoutNul]
    split
    · rfl
    · cases bytes.splitOn Byte.newline <;> rfl

theorem segments_withoutNul (bytes : Bytes) :
    segments (withoutNul bytes) = (segments bytes).map withoutNul := by
  induction bytes with
  | nil => rfl
  | cons b bytes ih =>
    change segments ((if b = Byte.nul then Byte.space else b) :: withoutNul bytes) = _
    rw [segments, segments, ih]
    simp only [eq_newline_iff_of_withoutNul]
    split
    · rfl
    · cases segments bytes <;> rfl

theorem lines_withoutNul (bytes : Bytes) :
    lines (withoutNul bytes) = (lines bytes).map withoutNul := by
  rw [lines, splitOn_withoutNul, lines, List.map_dropLast]

theorem nulLines_eq_nil_iff (n : Nat) (bytes : Bytes) :
    nulLines n bytes = [] ↔ Byte.nul ∉ bytes := by
  induction bytes generalizing n with
  | nil => simp [nulLines]
  | cons b bytes ih =>
    rw [nulLines]
    split
    · next h => simp [ih, h, Byte.newline, Byte.nul]
    · split
      · next h => simp [h]
      · next h => simp [ih, Ne.symm h]

theorem nulLines_add (n k : Nat) (bytes : Bytes) :
    nulLines (n + k) bytes = (nulLines n bytes).map (· + k) := by
  induction bytes generalizing n with
  | nil => rfl
  | cons b bytes ih =>
    rw [nulLines, nulLines, Nat.add_right_comm, ih, ih]
    split_ifs <;> rfl

theorem nulLines_append_newline (n : Nat) (xs ys : Bytes) :
    nulLines n (xs ++ Byte.newline :: ys) =
      nulLines n xs ++ nulLines (n + (xs.splitOn Byte.newline).length) ys := by
  induction xs generalizing n with
  | nil => simp [nulLines]
  | cons x xs ih =>
    rw [List.cons_append, nulLines, nulLines, ih, ih, splitOn_cons]
    split_ifs
    · rw [List.length_cons, Nat.add_right_comm, Nat.add_assoc n]
    · simp
    · simp

/-- Every NUL byte stands on a line of its source. -/
theorem nulLines_bounds {n k : Nat} {bytes : Bytes} (h : k ∈ nulLines n bytes) :
    n ≤ k ∧ k < n + (segments bytes).length := by
  induction bytes generalizing n with
  | nil => cases h
  | cons b bytes ih =>
    rw [nulLines] at h
    rw [length_segments_cons]
    split at h
    · next hb =>
      have hk := ih h
      rw [if_pos hb]
      omega
    · next hb =>
      rw [if_neg hb]
      split at h
      · rcases List.mem_cons.mp h with rfl | h
        · omega
        · have hk := ih h
          omega
      · have hk := ih h
        omega

theorem lacksNewline_eq_false_iff (bytes : Bytes) :
    lacksNewline bytes = false ↔ Terminated bytes := by
  rw [lacksNewline, Terminated]
  cases h : bytes.getLast? with
  | none => simpa using h
  | some b =>
    have hne : bytes ≠ [] := by
      rintro rfl
      cases h
    simp [hne]

/-! ### Numbers and the mark of the last line -/

theorem length_numbered (path : String) (nestLevel n : Nat) (segments : List Bytes) :
    (numbered path nestLevel n segments).length = segments.length := by
  induction segments generalizing n with
  | nil => rfl
  | cons data segments ih => rw [numbered, List.length_cons, ih, List.length_cons]

theorem map_data_numbered (path : String) (nestLevel n : Nat) (segments : List Bytes) :
    (numbered path nestLevel n segments).map Line.data = segments := by
  induction segments generalizing n with
  | nil => rfl
  | cons data segments ih => rw [numbered, List.map_cons, ih]

theorem getElem?_numbered (path : String) (nestLevel n : Nat) (segments : List Bytes) (i : Nat) :
    (numbered path nestLevel n segments)[i]? =
      segments[i]?.map fun data =>
        ⟨data, path, n + i, decide (i + 1 = segments.length), nestLevel, .none⟩ := by
  induction segments generalizing n i with
  | nil => simp [numbered]
  | cons data segments ih =>
    rw [numbered]
    cases i with
    | zero =>
      cases segments <;> simp
    | succ i =>
      rw [List.getElem?_cons_succ, ih, List.getElem?_cons_succ, List.length_cons,
        Nat.add_right_comm n 1 i, Nat.add_assoc n i 1]
      simp only [Nat.add_right_cancel_iff]

theorem length_ofBytes (path : String) (nestLevel : Nat) (bytes : Bytes) :
    (ofBytes path nestLevel bytes).length = (segments bytes).length := by
  rw [ofBytes, length_numbered, segments_withoutNul, List.length_map]

/-- The line at an index is numbered from 1 and holds the segment at that index. -/
theorem getElem?_ofBytes (path : String) (nestLevel : Nat) (bytes : Bytes) (i : Nat) :
    (ofBytes path nestLevel bytes)[i]? = (segments bytes)[i]?.map fun data =>
      ⟨withoutNul data, path, i + 1, decide (i + 1 = (ofBytes path nestLevel bytes).length),
        nestLevel, .none⟩ := by
  rw [length_ofBytes, ofBytes, getElem?_numbered, segments_withoutNul, List.getElem?_map,
    List.length_map, Option.map_map, Nat.add_comm 1 i]
  rfl

/-- A source that starts with a line of these bytes. -/
theorem ofBytes_cons_line (name : String) (nestLevel : Nat) {data : Bytes} (hnul : Byte.nul ∉ data)
    (hnewline : Byte.newline ∉ data) (b : Bytes) :
    ofBytes name nestLevel (data ++ Byte.newline :: b) =
      ⟨data, name, 1, (withoutNul b).segments.isEmpty, nestLevel, .none⟩ ::
        numbered name nestLevel 2 (withoutNul b).segments := by
  have hnext : withoutNul (Byte.newline :: b) = Byte.newline :: withoutNul b := rfl
  rw [ofBytes, withoutNul_append, withoutNul_eq_self hnul, hnext, segments_append_newline,
    List.splitOn_eq_singleton hnewline]
  rfl

theorem numbered_map (path : String) (nestLevel n : Nat) (f : Bytes → Bytes)
    (segments : List Bytes) :
    numbered path nestLevel n (segments.map f) =
      (numbered path nestLevel n segments).map fun l => { l with data := f l.data } := by
  induction segments generalizing n with
  | nil => rfl
  | cons data segments ih =>
    rw [List.map_cons, numbered, ih, numbered, List.map_cons, List.isEmpty_map]

theorem getLast?_of_eof {path : String} {nestLevel n : Nat} {segments : List Bytes} {l : Line}
    (hl : l ∈ numbered path nestLevel n segments) (heof : l.eof = true) :
    (numbered path nestLevel n segments).getLast? = some l := by
  induction segments generalizing n with
  | nil => cases hl
  | cons data segments ih =>
    rcases List.mem_cons.mp hl with rfl | hl
    · obtain rfl : segments = [] := by simpa using heof
      rfl
    · cases segments with
      | nil => cases hl
      | cons next segments => exact ih hl

/-- A line as it is when these segments follow. -/
def followedBy (segments : List Bytes) (l : Line) : Line :=
  { l with eof := l.eof && segments.isEmpty }

theorem numbered_append (path : String) (nestLevel n : Nat) (as bs : List Bytes) :
    numbered path nestLevel n (as ++ bs) =
      (numbered path nestLevel n as).map (followedBy bs) ++
        numbered path nestLevel (n + as.length) bs := by
  induction as generalizing n with
  | nil => simp [numbered]
  | cons a as ih =>
    rw [List.cons_append, numbered, ih, numbered, List.map_cons, List.cons_append, List.length_cons,
      Nat.add_right_comm, Nat.add_assoc n]
    cases as <;> rfl

/-! ### What loading makes sure of -/

/-- Neither a NUL byte nor a newline is left in the line. -/
structure Framed (l : Line) : Prop where
  nul : Byte.nul ∉ l.data
  newline : Byte.newline ∉ l.data

theorem framed_of_mem_ofBytes {path : String} {nestLevel : Nat} {bytes : Bytes} {l : Line}
    (hl : l ∈ ofBytes path nestLevel bytes) : l.Framed := by
  have hdata : l.data ∈ segments (withoutNul bytes) := by
    rw [← map_data_numbered path nestLevel 1 (segments (withoutNul bytes))]
    exact List.mem_map_of_mem hl
  constructor
  · intro hnul
    exact nul_not_mem_withoutNul bytes (mem_of_mem_segments hdata hnul).1
  · intro hnewline
    exact (mem_of_mem_segments hdata hnewline).2 rfl

end Line

end MakeLint
