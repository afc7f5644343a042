import MakeLint.Line.Pass
import MakeLint.Line.Scan
import MakeLint.Proofs.Finding
import MakeLint.Proofs.Lint.Repaired
/-!
# Nothing lost in framing

The lines of a source, put together again with their newlines, are the source with a space for each NUL
byte, and with a newline more where it did not end in one. The two scans agree on where the lines are:
the first counts the newlines that end the pieces which the second one takes.
-/

namespace MakeLint

namespace Bytes

/-- The newline that is missing at the end, if one is. -/
def supplied (bytes : Bytes) : Bytes :=
  if Line.lacksNewline bytes then [Byte.newline] else []

/-- As many pieces as newlines, and what is left over. -/
theorem length_splitOn (bytes : Bytes) :
    (bytes.splitOn Byte.newline).length = bytes.count Byte.newline + 1 := by
  induction bytes with
  | nil => rfl
  | cons b bytes ih =>
    rw [splitOn_cons]
    split
    · next h => rw [List.length_cons, ih, h, List.count_cons_self]
    · next h => rw [List.length_modifyHead, ih, List.count_cons_of_ne h]

theorem lines_eq_take (bytes : Bytes) :
    lines bytes = (bytes.splitOn Byte.newline).take (bytes.count Byte.newline) := by
  rw [lines, List.dropLast_eq_take, length_splitOn, Nat.add_sub_cancel]

theorem length_lines (bytes : Bytes) : (lines bytes).length = bytes.count Byte.newline := by
  rw [lines, List.length_dropLast, length_splitOn, Nat.add_sub_cancel]

theorem supplied_singleton {b : UInt8} (h : b ≠ Byte.newline) : supplied [b] = [Byte.newline] :=
  if_pos (decide_eq_true h)

theorem supplied_newline_cons (bytes : Bytes) : supplied (Byte.newline :: bytes) = supplied bytes := by
  cases bytes with
  | nil => rfl
  | cons b bytes => rfl

theorem supplied_cons (b : UInt8) {bytes : Bytes} (h : bytes ≠ []) :
    supplied (b :: bytes) = supplied bytes := by
  obtain ⟨c, rest, rfl⟩ := List.exists_cons_of_ne_nil h
  rfl

/-- Put together again, each with its newline, the segments are the bytes with a newline at the end. -/
theorem flatMap_newline_segments (bytes : Bytes) :
    (segments bytes).flatMap (· ++ [Byte.newline]) = bytes ++ supplied bytes := by
  induction bytes with
  | nil => rfl
  | cons b bytes ih =>
    rw [segments]
    split
    · next hb =>
      subst hb
      rw [List.flatMap_cons, ih, supplied_newline_cons]
      rfl
    · next hb =>
      cases hsegments : segments bytes with
      | nil =>
        obtain rfl := (segments_eq_nil_iff bytes).mp hsegments
        rw [supplied_singleton hb]
        rfl
      | cons s more =>
        have hne : bytes ≠ [] := by
          rintro rfl
          cases hsegments
        rw [hsegments] at ih
        rw [supplied_cons b hne, List.cons_append, ← ih]
        rfl

/-- The second scan takes the segments. -/
theorem segments_eq_take (bytes : Bytes) :
    segments bytes = ((bytes ++ supplied bytes).splitOn Byte.newline).take
      ((bytes ++ supplied bytes).count Byte.newline) := by
  have hnewline : ∀ s ∈ segments bytes, Byte.newline ∉ s :=
    fun s hs hmem => (mem_of_mem_segments hs hmem).2 rfl
  have hended : Terminated (bytes ++ supplied bytes) := by
    rw [← flatMap_newline_segments]
    exact terminated_flatMap_newline _
  rw [← lines_eq_take, ← hended.segments_eq, ← flatMap_newline_segments,
    segments_flatMap_newline hnewline]

theorem length_segments (bytes : Bytes) :
    (segments bytes).length = (bytes ++ supplied bytes).count Byte.newline := by
  rw [segments_eq_take, ← lines_eq_take, length_lines]

end Bytes

namespace Line

open Bytes

/-! ### Lines put together again -/

theorem lacksNewline_withoutNul (bytes : Bytes) :
    lacksNewline (withoutNul bytes) = lacksNewline bytes := by
  rw [lacksNewline, withoutNul, List.getLast?_map, lacksNewline]
  cases bytes.getLast? with
  | none => rfl
  | some b => simp [eq_newline_iff_of_withoutNul]

theorem supplied_withoutNul (bytes : Bytes) : supplied (withoutNul bytes) = supplied bytes := by
  rw [supplied, lacksNewline_withoutNul, supplied]

theorem text_ofBytes (path : String) (nestLevel : Nat) (bytes : Bytes) :
    text (ofBytes path nestLevel bytes) = withoutNul bytes ++ supplied bytes := by
  rw [text_eq_flatMap_data, ofBytes, map_data_numbered, flatMap_newline_segments,
    supplied_withoutNul]

theorem total_length_data (ls : List Line) :
    total (fun l => l.data.length + 1) ls = (text ls).length := by
  rw [text, ← total_length_flatMap]
  simp only [List.length_append, List.length_singleton]

/-! ### NUL bytes, line by line -/

/-- The first scan finds as many NUL bytes on a line as the line has. -/
theorem nulLines_eq (n : Nat) (bytes : Bytes) :
    nulLines n bytes = ((bytes.splitOn Byte.newline).zipIdx n).flatMap fun p =>
      List.replicate (p.1.count Byte.nul) p.2 := by
  induction bytes generalizing n with
  | nil => rfl
  | cons b bytes ih =>
    rw [nulLines, splitOn_cons]
    split
    · rw [ih, List.zipIdx_cons, List.flatMap_cons]
      rfl
    · have hrest := ih n
      obtain ⟨s, more, hsplit⟩ := List.exists_cons_of_ne_nil (List.splitOn_ne_nil Byte.newline bytes)
      rw [hsplit, List.zipIdx_cons, List.flatMap_cons] at hrest
      rw [hsplit, List.modifyHead_cons, List.zipIdx_cons, List.flatMap_cons]
      split
      · next hnul => rw [hrest, hnul, List.count_cons_self, List.replicate_succ, List.cons_append]
      · next hnul => rw [hrest, List.count_cons_of_ne hnul]

/-! ### The two scans -/

namespace Scan

/-- The finding of a NUL byte on a line. -/
def nulAt (path : String) (n : Nat) : Finding :=
  ⟨.nulByte, { path := path, line := n }⟩

/-- The first scan, over any bytes. -/
theorem bytes_eq (path : String) (s : Scan) (bytes : Bytes) :
    Scan.bytes path s bytes =
      ⟨s.buffer ++ withoutNul bytes, s.newlines + bytes.count Byte.newline,
        s.findings ++ (nulLines (s.newlines + 1) bytes).map (nulAt path)⟩ := by
  induction bytes generalizing s with
  | nil => simp [Scan.bytes, withoutNul, nulLines]
  | cons b bytes ih =>
    change Scan.bytes path (s.byte path b) bytes = _
    rw [ih, nulLines]
    by_cases hnewline : b = Byte.newline
    · subst hnewline
      have hread : withoutNul (Byte.newline :: bytes) = Byte.newline :: withoutNul bytes := rfl
      simp [Scan.byte, hread, Nat.add_assoc, Nat.add_comm 1]
    · by_cases hnul : b = Byte.nul
      · subst hnul
        have hread : withoutNul (Byte.nul :: bytes) = Byte.space :: withoutNul bytes := rfl
        simp [Scan.byte, hread, hnewline, nulAt, Scan.place]
      · have hread : withoutNul (b :: bytes) = b :: withoutNul bytes :=
          congrArg (· :: withoutNul bytes) (if_neg hnul)
        simp [Scan.byte, hread, hnewline, hnul]

/-- The first scan counts the segments, whether or not it has to supply the final newline. -/
theorem terminate_bytes (path : String) (bytes : Bytes) :
    (Scan.bytes path {} bytes).terminate path =
      ⟨withoutNul bytes ++ supplied bytes, (segments bytes).length,
        (nulLines 1 bytes).map (nulAt path) ++
          if lacksNewline bytes then [⟨.missingNewline, ⟨path, (segments bytes).length, none⟩⟩]
          else []⟩ := by
  have hread := bytes_eq path {} bytes
  simp only [List.nil_append, Nat.zero_add] at hread
  rw [hread, terminate, lacksNewline_withoutNul, length_segments, supplied]
  split
  · simp [place]
  · simp

/-- The second scan numbers the pieces that it takes, and marks the last if there are as many as were
counted. -/
theorem lines_eq {path : String} {nestLevel : Nat} {s : Scan} {pieces : List Bytes}
    (h : (s.buffer.splitOn Byte.newline).take s.newlines = pieces)
    (hcount : s.newlines = pieces.length) :
    s.lines path nestLevel = numbered path nestLevel 1 pieces := by
  apply List.ext_getElem?
  intro i
  rw [lines, h, List.getElem?_mapIdx, getElem?_numbered, hcount, Nat.add_comm 1 i]

theorem lines_bytes (path : String) (nestLevel : Nat) (bytes : Bytes) :
    ((Scan.bytes path {} bytes).terminate path).lines path nestLevel =
      ofBytes path nestLevel bytes := by
  have hcount : (segments bytes).length = (segments (withoutNul bytes)).length := by
    rw [segments_withoutNul, List.length_map]
  have htake := segments_eq_take (withoutNul bytes)
  rw [← length_segments, supplied_withoutNul] at htake
  rw [terminate_bytes]
  apply lines_eq _ hcount
  rw [hcount]
  exact htake.symm

end Scan

/-- The two scans cut out the lines and find what is wrong with their framing. -/
theorem scan_eq (path : String) (nestLevel : Nat) (bytes : Bytes) :
    scan path nestLevel bytes =
      (ofBytes path nestLevel bytes, framingFindings path bytes (ofBytes path nestLevel bytes)) := by
  simp only [scan, Scan.lines_bytes]
  simp only [Scan.terminate_bytes, framingFindings, length_ofBytes]
  rfl

-- an empty line, and a NUL byte where the last newline is missing
example : scan "Makefile" 0 [0x61, 0x0a, 0x0a, 0x00] =
    ([⟨[0x61], "Makefile", 1, false, 0, .none⟩, ⟨[], "Makefile", 2, false, 0, .none⟩,
        ⟨[0x20], "Makefile", 3, true, 0, .none⟩],
      [⟨.nulByte, ⟨"Makefile", 3, none⟩⟩, ⟨.missingNewline, ⟨"Makefile", 3, none⟩⟩]) := by
  decide

/-! ### What is found -/

/-- What is to be found wrong with the framing: as many NUL bytes on each line as the line has, at the
last line the newline that is missing, and the lines of 2048 bytes or more. -/
def framingReport (path : String) (bytes : Bytes) (ls : List Line) : List Finding :=
  ((bytes.splitOn Byte.newline).zipIdx.flatMap fun p =>
    List.replicate (p.1.count Byte.nul) (Scan.nulAt path (p.2 + 1))) ++
  (if lacksNewline bytes then [⟨.missingNewline, { path := path, line := ls.length }⟩] else []) ++
  (ls.filter fun l => 2048 ≤ l.data.length).map (·.finding .overlongLine)

theorem framingFindings_eq (path : String) (bytes : Bytes) (ls : List Line) :
    framingFindings path bytes ls = framingReport path bytes ls := by
  have hnul : (nulLines 1 bytes).map (Scan.nulAt path) =
      (bytes.splitOn Byte.newline).zipIdx.flatMap fun p =>
        List.replicate (p.1.count Byte.nul) (Scan.nulAt path (p.2 + 1)) := by
    rw [nulLines_eq, List.map_flatMap, List.zipIdx_succ, List.flatMap_map]
    simp only [List.map_replicate]
  have hlong (l : Line) : l.isOverlong = decide (2048 ≤ l.data.length) :=
    decide_eq_decide.mpr Nat.lt_succ_iff
  rw [framingReport, ← hnul, ← funext hlong]
  rfl

theorem count_replicate_nulAt (path : String) (m n k : Nat) :
    (List.replicate m (Scan.nulAt path (n + 1))).count (Scan.nulAt path (k + 1)) =
      if n = k then m else 0 := by
  rw [List.count_replicate]
  simp [Scan.nulAt]

/-- The NUL bytes found on one line are those of the line. -/
theorem count_nulAt (path : String) (n k : Nat) (pieces : List Bytes) :
    ((pieces.zipIdx n).flatMap fun p =>
        List.replicate (p.1.count Byte.nul) (Scan.nulAt path (p.2 + 1))).count
      (Scan.nulAt path (k + 1)) =
        if n ≤ k then (pieces[k - n]?.getD []).count Byte.nul else 0 := by
  induction pieces generalizing n with
  | nil => simp
  | cons piece pieces ih =>
    rw [List.zipIdx_cons, List.flatMap_cons, List.count_append, ih, count_replicate_nulAt]
    rcases Nat.lt_trichotomy n k with hlt | rfl | hgt
    · have hindex : k - n = k - (n + 1) + 1 := by omega
      rw [if_neg (by omega), if_pos (by omega), if_pos (by omega), hindex, List.getElem?_cons_succ,
        Nat.zero_add]
    · rw [if_pos rfl, if_neg (by omega), if_pos (Nat.le_refl n), Nat.sub_self,
        List.getElem?_cons_zero, Option.getD_some, Nat.add_zero]
    · rw [if_neg (by omega), if_neg (by omega), if_neg (by omega)]

theorem count_framingReport (path : String) (bytes : Bytes) (ls : List Line) (k : Nat) :
    (framingReport path bytes ls).count (Scan.nulAt path (k + 1)) =
      ((bytes.splitOn Byte.newline)[k]?.getD []).count Byte.nul := by
  have hmissing : (if lacksNewline bytes then
      [(⟨.missingNewline, { path := path, line := ls.length }⟩ : Finding)] else []).count
        (Scan.nulAt path (k + 1)) = 0 := by
    apply List.count_eq_zero.mpr
    split <;> simp [Scan.nulAt]
  have hlong : ((ls.filter fun l => 2048 ≤ l.data.length).map (·.finding .overlongLine)).count
      (Scan.nulAt path (k + 1)) = 0 := by
    apply List.count_eq_zero.mpr
    simp [Scan.nulAt, Line.finding]
  rw [framingReport, List.count_append, List.count_append, hmissing, hlong, count_nulAt,
    if_pos (Nat.zero_le k), Nat.sub_zero, Nat.add_zero]

end Line

open Line

/-- Loading a source loses nothing of it and adds nothing but the newline that was missing, and what it
reports is the spaces put for NUL bytes, that newline, and the lines too long for text files. -/
theorem Progress.load_framing (r : Registry) (path : String) (nestLevel : Nat) (bytes : Bytes) :
    let loaded := Progress.load r path nestLevel bytes
    let ended := withoutNul bytes ++ (if lacksNewline bytes then [Byte.newline] else [])
    let found := framingReport path bytes loaded.lines
    let said : List Notice :=
      ((bytes.splitOn Byte.newline).zipIdx.flatMap fun p =>
        (List.replicate (p.1.count Byte.nul)
          [Notice.warn .text .undefined (some { path := path, line := p.2 + 1 })
            ("file contains a NUL byte, this is disallowed, because input files are text files, and " ++
              "causes undefined behaviour"),
            Notice.info .text "this implementation will replace it with a <space>"]).flatten) ++
      (if lacksNewline bytes then
        [Notice.warn .text .undefined (some { path := path, line := loaded.lines.length })
          ("is non-empty but does not end with a <newline>, which is required because input files are " ++
            "text files, and omission of it causes undefined behaviour"),
          Notice.info .text "this implementation will add the missing <newline>"]
      else []) ++
      (loaded.lines.filter fun l => 2048 ≤ l.data.length).flatMap fun l =>
        [Notice.warn .text .undefined (some l.location)
          ("line is, including the <newline> character, longer than 2048 bytes which causes undefined " ++
            "behaviour as input files are text files and POSIX only guarantees support for lines up " ++
            "to 2048 bytes long including the <newline> character in text files"),
          Notice.info .text "this implementation supports arbitrarily long lines",
          Notice.tip .text
            ("you can put a <backslash> at the end of the line to continue it on the next line, " ++
              "except in or immediately preceding an include line")]
    scan path nestLevel bytes = (loaded.lines, found) ∧
      text loaded.lines = ended ∧
      total (fun l => l.data.length + 1) loaded.lines = ended.length ∧
      (∀ style, (Lint.source path style bytes).1.bytes = ended.length) ∧
      (∀ k, found.count (Scan.nulAt path (k + 1)) =
        ((bytes.splitOn Byte.newline)[k]?.getD []).count Byte.nul) ∧
      loaded.sink.records.toList =
        (if r.action .text = .ignore then [] else said.map r.shown) := by
  intro loaded ended found said
  have htext (nestLevel : Nat) : text (ofBytes path nestLevel bytes) = ended :=
    text_ofBytes path nestLevel bytes
  have hfound : framingFindings path bytes loaded.lines = found :=
    framingFindings_eq path bytes loaded.lines
  refine ⟨?_, htext nestLevel, ?_, ?_, count_framingReport path bytes loaded.lines, ?_⟩
  · rw [scan_eq]
    exact congrArg (Prod.mk _) hfound
  · rw [total_length_data]
    exact congrArg List.length (htext nestLevel)
  · intro style
    change total _ (ofBytes path 0 bytes) = _
    rw [total_length_data, htext]
  · have hcls : ∀ f ∈ found, f.defect.cls = .text := by
      intro f hf
      rw [← hfound] at hf
      exact cls_framingFindings hf
    have hsaid : found.flatMap Finding.notices = said := by
      simp only [found, framingReport, List.flatMap_append, List.flatMap_assoc,
        List.flatMap_replicate, List.flatMap_map, apply_ite (List.flatMap Finding.notices)]
      rfl
    rw [← hsaid, ← Registry.records_of_cls hcls, ← hfound]
    exact Sink.records_addFindings { registry := r } _

end MakeLint
