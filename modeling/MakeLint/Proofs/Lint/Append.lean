import MakeLint.Lint
import MakeLint.Proofs.Line.Alike
import MakeLint.Proofs.Line.Continuation
import MakeLint.Proofs.Line.Framing
import MakeLint.Proofs.Line.Physical
import MakeLint.Proofs.Line.Width
/-!
# Sources one after the other

Where a source ends with its last line, and that line does not continue, nothing that follows can
change what is found in it: the anchor of a continuation is gone, and no run of lines reaches over the
seam. What follows is linted as a source of its own with its lines numbered further on.
-/

namespace MakeLint

instance : Add ClassCounts :=
  ⟨fun m n => ⟨m.empty + n.empty, m.blank + n.blank, m.comment + n.comment,
    m.commandLine + n.commandLine, m.other + n.other⟩⟩

namespace ClassCounts

theorem add_def (m n : ClassCounts) :
    m + n = ⟨m.empty + n.empty, m.blank + n.blank, m.comment + n.comment,
      m.commandLine + n.commandLine, m.other + n.other⟩ :=
  rfl

theorem zero_add (n : ClassCounts) : ({} : ClassCounts) + n = n := by
  simp [add_def]

theorem record_add (m n : ClassCounts) (cls : LineClass) :
    (m + n).record cls = m.record cls + n := by
  cases cls <;> simp [add_def, record, Nat.add_right_comm]

end ClassCounts

namespace Line

/-- The same line where it stands `k` lines further down. -/
structure Moved (k : Nat) (l m : Line) : Prop where
  data : m.data = l.data
  path : m.path = l.path
  number : m.number = l.number + k
  nestLevel : m.nestLevel = l.nestLevel
  eof : l.data.getLast? = some Byte.backslash → m.eof = l.eof

variable {k : Nat} {l m : Line}

theorem Moved.alike (h : Moved k l m) : Alike k l m :=
  ⟨h.data ▸ .refl _, h.path, h.number, h.nestLevel⟩

theorem Moved.repair (h : Moved k l m) : AlikeLoaded k l.repair m.repair := by
  have hback := (Utf8.alike_repair l.data).getLast?_iff (show Byte.backslash < 0x80 by decide)
  refine ⟨⟨?_, h.path, h.number, h.nestLevel⟩, fun hl => h.eof (hback.mpr hl)⟩
  rw [Line.repair, Line.repair, h.data]
  exact .refl _

theorem Moved.encodingFindings (h : Moved k l m) :
    m.encodingFindings = l.encodingFindings.map (Finding.shift k) := by
  rw [Line.encodingFindings, Line.encodingFindings, List.map_replicate, h.data, h.alike.finding]

theorem Moved.widthFindings (h : Moved k l m) (style : Style) :
    m.repair.widthFindings style = (l.repair.widthFindings style).map (Finding.shift k) := by
  have hdata : m.repair.data = l.repair.data := by
    rw [Line.repair, Line.repair, h.data]
  rw [widthFindings_eq, widthFindings_eq, Line.content, hdata, h.repair.finding, ← Line.content,
    apply_ite (List.map (Finding.shift k))]
  rfl

theorem lineFindings_moved (style : Style) {ls ms : List Line} (h : List.Forall₂ (Moved k) ls ms) :
    Lint.lineFindings style ms = (Lint.lineFindings style ls).map (Finding.shift k) := by
  induction h with
  | nil => rfl
  | cons h _ ih =>
    simp only [Lint.lineFindings, List.flatMap_cons, List.map_append] at ih ⊢
    rw [ih, h.encodingFindings, h.widthFindings]

theorem map_repair_moved {ls ms : List Line} (h : List.Forall₂ (Moved k) ls ms) :
    List.Forall₂ (AlikeLoaded k) (ls.map Line.repair) (ms.map Line.repair) := by
  induction h with
  | nil => exact .nil
  | cons h _ ih => exact .cons h.repair ih

theorem lines_moved (style : Style) {ls ms : List Line} (h : List.Forall₂ (Moved k) ls ms) :
    Lint.lines style ms = shiftResult k (Lint.lines style ls) := by
  have hrepaired := map_repair_moved h
  simp only [Lint.lines, survey_alike style (joinAll_alike hrepaired), lineFindings_moved style h,
    continuationFindings_alike hrepaired, shiftResult, List.map_append]

/-! ### Nothing reaches over the seam -/

theorem continuationFindingsFrom_append (before : Option Anchor) (ls ms : List Line) :
    continuationFindingsFrom before (ls ++ ms) =
      continuationFindingsFrom before ls ++
        continuationFindingsFrom (ls.foldl (fun a l => anchorAfter a l.join) before) ms := by
  induction ls generalizing before with
  | nil => rfl
  | cons l ls ih =>
    rw [List.cons_append, continuationFindingsFrom, ih, continuationFindingsFrom, List.append_assoc,
      List.foldl_cons]

/-- The lines end with one that does not continue. -/
def Closed (ls : List Line) : Prop :=
  ∃ l, ls.getLast? = some l ∧ l.isContinued = false

theorem Closed.of_cons {l m : Line} {ls : List Line} (h : Closed (l :: m :: ls)) :
    Closed (m :: ls) := by
  obtain ⟨last, hlast, hclosed⟩ := h
  exact ⟨last, by simpa using hlast, hclosed⟩

theorem Closed.of_singleton {l : Line} (h : Closed [l]) : l.isContinued = false := by
  obtain ⟨last, hlast, hclosed⟩ := h
  obtain rfl : l = last := by simpa using hlast
  exact hclosed

theorem classifyRun_append {ls : List Line} (h : Closed ls) (warned : Bool) (ms : List Line) :
    classifyRun warned (ls ++ ms) = classifyRun warned ls := by
  induction ls generalizing warned with
  | nil => obtain ⟨_, h, _⟩ := h; cases h
  | cons l ls ih =>
    rw [List.cons_append, classifyRun, classifyRun]
    cases ls with
    | nil => simp [h.of_singleton]
    | cons m ls => rw [ih h.of_cons]

theorem classify_append {ls : List Line} (h : Closed ls) (ms : List Line) :
    classify (ls ++ ms) = classify ls := by
  have hrun := classifyRun_append h false ms
  cases ls with
  | nil => obtain ⟨_, h, _⟩ := h; cases h
  | cons l ls => simp only [List.cons_append, classify] at hrun ⊢; rw [hrun]

theorem survey_append (style : Style) {ls : List Line} (h : Closed ls) (inside : Bool)
    (ms : List Line) :
    Lint.survey style inside (ls ++ ms) =
      ((Lint.survey style inside ls).1 + (Lint.survey style false ms).1,
        (Lint.survey style inside ls).2 ++ (Lint.survey style false ms).2) := by
  induction ls generalizing inside with
  | nil => obtain ⟨_, h, _⟩ := h; cases h
  | cons l ls ih =>
    have hclass := classify_append h ms
    have hrest : Lint.survey style l.isContinued (ls ++ ms) =
        ((Lint.survey style l.isContinued ls).1 + (Lint.survey style false ms).1,
          (Lint.survey style l.isContinued ls).2 ++ (Lint.survey style false ms).2) := by
      cases ls with
      | nil =>
        rw [h.of_singleton, List.nil_append, Lint.survey, ClassCounts.zero_add, List.nil_append]
      | cons m ls => exact ih h.of_cons _
    rw [List.cons_append] at hclass ⊢
    rw [Lint.survey, Lint.survey, hrest, hclass]
    cases inside with
    | false => simp [ClassCounts.record_add, List.append_assoc]
    | true => simp [List.append_assoc]

/-- The last line, if there is one, does not end in a backslash. -/
def EndsHere (ls : List Line) : Prop :=
  ∀ l ∈ ls.getLast?, ¬ Bytes.EndsInBackslash l.data

theorem isContinued_repair_join {l : Line} (h : ¬ Bytes.EndsInBackslash l.data) :
    l.repair.join.isContinued = false := by
  rw [isContinued_join, decide_eq_false_iff_not, ends_repair]
  exact h

/-- Findings of all checks on lines that do not continue into those that follow. -/
theorem lines_append (style : Style) {ls : List Line} (h : EndsHere ls) (ms : List Line) :
    (Lint.lines style (ls ++ ms)).1 = (Lint.lines style ls).1 + (Lint.lines style ms).1 ∧
      (Lint.lines style (ls ++ ms)).2.Perm ((Lint.lines style ls).2 ++ (Lint.lines style ms).2) := by
  rcases List.eq_nil_or_concat ls with rfl | ⟨init, l, rfl⟩
  · exact ⟨(ClassCounts.zero_add _).symm, .refl _⟩
  · have hl : ¬ Bytes.EndsInBackslash l.data := h l (by simp)
    have hjoin := isContinued_repair_join hl
    have hclosed : Closed (joinAll ((init.concat l).map Line.repair)) := by
      refine ⟨l.repair.join.settle, by simp [joinAll], ?_⟩
      rw [isContinued_settle, hjoin, Bool.false_and]
    have hanchor : ((init.concat l).map Line.repair).foldl (fun a l => anchorAfter a l.join) none =
        none := by
      rw [List.concat_eq_append, List.map_append, List.foldl_append, ← Option.not_isSome_iff_eq_none,
        List.map_singleton, List.foldl_cons, List.foldl_nil, anchorAfter_isSome, isContinued_settle,
        hjoin]
      simp
    have hjoined : joinAll ((init.concat l ++ ms).map Line.repair) =
        joinAll ((init.concat l).map Line.repair) ++ joinAll (ms.map Line.repair) := by
      simp [joinAll]
    have hfound : continuationFindings ((init.concat l ++ ms).map Line.repair) =
        continuationFindings ((init.concat l).map Line.repair) ++
          continuationFindings (ms.map Line.repair) := by
      rw [continuationFindings, List.map_append, continuationFindingsFrom_append, hanchor]
      rfl
    simp only [Lint.lines, hjoined, survey_append style hclosed, hfound, Lint.lineFindings,
      List.flatMap_append, true_and]
    rw [List.perm_iff_count]
    intro f
    simp only [List.count_append]
    omega

end Line

namespace Lint

open Line Bytes

theorem numbered_moved (k : Nat) (name : String) (nestLevel n : Nat) (segments : List Bytes) :
    List.Forall₂ (Moved k) (numbered name nestLevel n segments)
      (numbered name nestLevel (n + k) segments) := by
  induction segments generalizing n with
  | nil => exact .nil
  | cons data segments ih =>
    rw [numbered, numbered, Nat.add_right_comm]
    exact .cons ⟨rfl, rfl, rfl, rfl, fun _ => rfl⟩ (ih (n + 1))

/-- What follows takes the mark of the last line, which does not matter to a line that ends here. -/
theorem followedBy_moved {name : String} {nestLevel n : Nat} {as : List Bytes}
    (h : EndsHere (numbered name nestLevel n as)) (bs : List Bytes) :
    List.Forall₂ (Moved 0) (numbered name nestLevel n as)
      ((numbered name nestLevel n as).map (followedBy bs)) := by
  rw [List.forall₂_map_right_iff, List.forall₂_same]
  intro l hl
  refine ⟨rfl, rfl, rfl, rfl, fun hends => ?_⟩
  cases heof : l.eof with
  | false => simp [followedBy, heof]
  | true => exact absurd hends (h l (getLast?_of_eof hl heof))

theorem endsHere_followedBy {ls : List Line} (h : EndsHere ls) (bs : List Bytes) :
    EndsHere (ls.map (followedBy bs)) := by
  intro l hl
  rw [List.getLast?_map] at hl
  obtain ⟨m, hm, rfl⟩ := Option.map_eq_some_iff.mp hl
  exact h m hm

theorem lines_congr (style : Style) {ls ms : List Line} (h : List.Forall₂ (Moved 0) ls ms) :
    lines style ms = lines style ls := by
  rw [lines_moved style h, shiftResult_zero]

end Lint

end MakeLint
