import MakeLint.Proofs.Finding
import MakeLint.Proofs.Lint.Findings
import MakeLint.Proofs.Line.Framing
import MakeLint.Proofs.Text.Alike
/-!
# Repaired sources

Once the NUL bytes, the missing newline and the encoding of a source have been repaired, there is
nothing left to repair: the repaired lines, put together with their newlines, are loaded as they are.
So the repair is idempotent, and what is found in the repaired source is what was found in the source,
but for the repairs. Only its lines may have become too long or short enough for text files, since the
repair changes the length of what it replaces.
-/

namespace MakeLint

namespace Line

open Bytes

/-- The bytes of lines, each with its newline. -/
def text (ls : List Line) : Bytes :=
  ls.flatMap fun l => l.data ++ [Byte.newline]

theorem text_eq_flatMap_data (ls : List Line) :
    text ls = (ls.map Line.data).flatMap (· ++ [Byte.newline]) := by
  rw [text, List.flatMap_map]

theorem terminated_text (ls : List Line) : Terminated (text ls) := by
  rw [text_eq_flatMap_data]
  exact terminated_flatMap_newline _

theorem nul_not_mem_text {ls : List Line} (h : ∀ l ∈ ls, l.Framed) : Byte.nul ∉ text ls := by
  intro hnul
  obtain ⟨l, hl, hnul⟩ := List.mem_flatMap.mp hnul
  rcases List.mem_append.mp hnul with hnul | hnul
  · exact (h l hl).nul hnul
  · exact absurd (List.mem_singleton.mp hnul) (by decide)

/-- Lines that are put together again are loaded as they were. -/
theorem ofBytes_text (path : String) (nestLevel : Nat) {ls : List Line} (h : ∀ l ∈ ls, l.Framed) :
    ofBytes path nestLevel (text ls) = numbered path nestLevel 1 (ls.map Line.data) := by
  have hsegments : segments (text ls) = ls.map Line.data := by
    rw [text_eq_flatMap_data]
    apply segments_flatMap_newline
    intro s hs
    obtain ⟨l, hl, rfl⟩ := List.mem_map.mp hs
    exact (h l hl).newline
  rw [ofBytes, withoutNul_eq_self (nul_not_mem_text h), hsegments]

theorem Framed.repair {l : Line} (h : l.Framed) : l.repair.Framed :=
  ⟨fun hnul => h.nul ((Utf8.mem_repair_iff (by decide) l.data).mp hnul),
    fun hnewline => h.newline ((Utf8.mem_repair_iff (by decide) l.data).mp hnewline)⟩

theorem repair_repair (l : Line) : l.repair.repair = l.repair := by
  have hdata := Utf8.repair_eq_self (Utf8.isValid_repair l.data)
  unfold Line.repair
  dsimp only
  rw [hdata]

theorem map_repair_map_repair (ls : List Line) :
    (ls.map Line.repair).map Line.repair = ls.map Line.repair := by
  rw [List.map_map]
  exact List.map_congr_left fun l _ => repair_repair l

end Line

namespace Lint

open Bytes Line

/-- A source once all of it has been repaired. -/
def repaired (path : String) (nestLevel : Nat) (bytes : Bytes) : Bytes :=
  text ((ofBytes path nestLevel bytes).map Line.repair)

theorem framed_repair {path : String} {nestLevel : Nat} {bytes : Bytes} :
    ∀ l ∈ (ofBytes path nestLevel bytes).map Line.repair, l.Framed := by
  intro m hm
  obtain ⟨l, hl, rfl⟩ := List.mem_map.mp hm
  exact (framed_of_mem_ofBytes hl).repair

/-- The lines of a repaired source are the repaired lines of the source. -/
theorem ofBytes_repaired (name path : String) (level nestLevel : Nat) (bytes : Bytes) :
    ofBytes name level (repaired path nestLevel bytes) =
      (ofBytes name level bytes).map Line.repair := by
  have hdata : ((ofBytes path nestLevel bytes).map Line.repair).map Line.data =
      (segments (withoutNul bytes)).map Utf8.repair := by
    rw [List.map_map, ofBytes, ← map_data_numbered path nestLevel 1 (segments (withoutNul bytes)),
      List.map_map, map_data_numbered]
    rfl
  rw [repaired, ofBytes_text name level framed_repair, hdata, numbered_map]
  rfl

theorem repaired_repaired (path : String) (nestLevel : Nat) (bytes : Bytes) :
    repaired path nestLevel (repaired path nestLevel bytes) = repaired path nestLevel bytes := by
  rw [repaired, ofBytes_repaired, map_repair_map_repair]
  rfl

/-! ### What is found -/

/-- Every class but that of the encoding. -/
def beyondEncoding (cls : WarningClass) : Bool :=
  cls ≠ .encoding

theorem encodingFindings_repair (l : Line) : l.repair.encodingFindings = [] := by
  have hcount : Utf8.malformedCount l.repair.data = 0 :=
    (Utf8.malformedCount_eq_zero _).mpr (Utf8.isValid_repair l.data)
  rw [encodingFindings, hcount, List.replicate_zero]

theorem lineFindings_repair (style : Style) (ls : List Line) :
    lineFindings style (ls.map Line.repair) =
      Finding.select beyondEncoding (lineFindings style ls) := by
  induction ls with
  | nil => rfl
  | cons l ls ih =>
    have hencoding : Finding.select beyondEncoding l.encodingFindings = [] := by
      apply Finding.select_eq_nil
      intro f hf
      rw [mem_encodingFindings hf]
      rfl
    have hwidth : Finding.select beyondEncoding (l.repair.widthFindings style) =
        l.repair.widthFindings style := by
      apply Finding.select_eq_self
      intro f hf
      obtain ⟨columns, limit, tipped, rfl⟩ := mem_widthFindings hf
      rfl
    simp only [lineFindings, List.map_cons, List.flatMap_cons, Finding.select_append] at ih ⊢
    rw [ih, encodingFindings_repair, repair_repair, hencoding, hwidth]

theorem select_continuationFindings (ls : List Line) :
    Finding.select beyondEncoding (continuationFindings ls) = continuationFindings ls := by
  apply Finding.select_eq_self
  intro f hf
  apply decide_eq_true
  rcases mem_continuationFindings hf with hf | hf
  · exact hf.cls_ne (by decide)
  · exact hf.cls_ne (by decide)

theorem select_survey (style : Style) (inside : Bool) (ls : List Line) :
    Finding.select beyondEncoding (survey style inside ls).2 = (survey style inside ls).2 := by
  apply Finding.select_eq_self
  intro f hf
  exact decide_eq_true ((mem_survey hf).cls_ne (by decide))

/-- In repaired lines all is found that was found before, but for the encoding. -/
theorem lines_repair (style : Style) (ls : List Line) :
    lines style (ls.map Line.repair) =
      ((lines style ls).1, Finding.select beyondEncoding (lines style ls).2) := by
  simp only [lines, map_repair_map_repair, lineFindings_repair, Finding.select_append,
    select_continuationFindings, select_survey]

/-- The framing of a repaired source is sound, but for lines that are too long. -/
theorem framingFindings_repaired (name path : String) (nestLevel : Nat) (bytes : Bytes)
    (ls : List Line) :
    framingFindings name (repaired path nestLevel bytes) ls =
      (ls.filter isOverlong).map (·.finding .overlongLine) := by
  have hnul : nulLines 1 (repaired path nestLevel bytes) = [] :=
    (nulLines_eq_nil_iff 1 _).mpr (nul_not_mem_text framed_repair)
  have hnewline : lacksNewline (repaired path nestLevel bytes) = false :=
    (lacksNewline_eq_false_iff _).mpr (terminated_text _)
  rw [framingFindings, hnul, hnewline]
  rfl

/-- What is found in a repaired source: its overlong lines, and what was found before in its lines but
for the encoding. -/
theorem source_repaired (name path : String) (style : Style) (nestLevel : Nat) (bytes : Bytes) :
    (source name style (repaired path nestLevel bytes)).2 =
      ((ofBytes name 0 (repaired path nestLevel bytes)).filter isOverlong).map
          (·.finding .overlongLine) ++
        Finding.select beyondEncoding (lines style (ofBytes name 0 bytes)).2 := by
  have hlines := lines_repair style (ofBytes name 0 bytes)
  rw [← ofBytes_repaired name path 0 nestLevel bytes] at hlines
  rw [source, framingFindings_repaired, hlines]

end Lint

end MakeLint
