import MakeLint.Lint
import MakeLint.Proofs.Shift
import MakeLint.Proofs.Text.Alike
/-!
# Lines that read alike

Two sources may hold the same text in other places and with other bytes outside ASCII. The checks of
continuations and of classes make the same of both: what they find in the one is what they find in the
other, further down by as many lines. The mark of the last line counts only where a backslash is
taken off.
-/

namespace MakeLint

namespace Line

/-- The second line reads like the first and stands `k` lines further down. -/
structure Alike (k : Nat) (l m : Line) : Prop where
  data : Bytes.Alike l.data m.data
  path : m.path = l.path
  number : m.number = l.number + k
  nestLevel : m.nestLevel = l.nestLevel

/-- Lines as they are loaded: both end their source if one does, at least where they end in a
backslash. -/
structure AlikeLoaded (k : Nat) (l m : Line) : Prop extends Alike k l m where
  eof : l.data.getLast? = some Byte.backslash → m.eof = l.eof

/-- Lines after they have been joined. -/
structure AlikeJoined (k : Nat) (l m : Line) : Prop extends Alike k l m where
  joiner : m.joiner = l.joiner
  eof : l.isContinued = true → m.eof = l.eof

variable {k : Nat} {l m : Line}

theorem Alike.finding (h : Alike k l m) (d : Defect) : m.finding d = (l.finding d).shift k := by
  simp [Line.finding, Line.location, Finding.shift, Location.shift, h.path, h.number]

theorem AlikeJoined.isContinued (h : AlikeJoined k l m) : m.isContinued = l.isContinued := by
  rw [Line.isContinued, Line.isContinued, h.joiner]

/-! ### Joining -/

theorem AlikeLoaded.join (h : AlikeLoaded k l m) : AlikeJoined k l.join m.join := by
  have hback : Byte.backslash < 0x80 := by decide
  unfold Line.join
  by_cases hl : l.data.getLast? = some Byte.backslash
  · have hm : m.data.getLast? = some Byte.backslash := (h.data.getLast?_iff hback).mp hl
    have hdata := h.data.dropLast hback hl
    have htab : (l.data.dropLast.head? = some Byte.tab) = (m.data.dropLast.head? = some Byte.tab) :=
      propext (hdata.head?_iff (by decide))
    rw [if_pos hl, if_pos hm]
    exact ⟨⟨hdata, h.path, h.number, h.nestLevel⟩, by simp only [htab], fun _ => h.eof hl⟩
  · have hm : ¬ m.data.getLast? = some Byte.backslash :=
      fun hm => hl ((h.data.getLast?_iff hback).mpr hm)
    rw [if_neg hl, if_neg hm]
    exact ⟨⟨h.data, h.path, h.number, h.nestLevel⟩, rfl, by simp [Line.isContinued]⟩

theorem AlikeJoined.settle (h : AlikeJoined k l m) : AlikeJoined k l.settle m.settle := by
  have hjoiner := h.joiner
  by_cases hl : l.isContinued = true
  · have heof := h.eof hl
    unfold Line.settle
    rw [heof]
    split
    · exact ⟨⟨h.data, h.path, h.number, h.nestLevel⟩, rfl, fun _ => rfl⟩
    · exact h
  · have hnone : l.joiner = .none := by simpa [Line.isContinued] using hl
    rw [hnone] at hjoiner
    unfold Line.settle
    split <;> split
    all_goals exact ⟨⟨h.data, h.path, h.number, h.nestLevel⟩, by simp [hnone, hjoiner],
      by simp [Line.isContinued, hnone]⟩

theorem joinAll_alike {ls ms : List Line} (h : List.Forall₂ (AlikeLoaded k) ls ms) :
    List.Forall₂ (AlikeJoined k) (joinAll ls) (joinAll ms) := by
  induction h with
  | nil => exact .nil
  | cons h _ ih => exact .cons h.join.settle ih

theorem joiners_alike {ls ms : List Line} (h : List.Forall₂ (AlikeJoined k) ls ms) :
    ms.map Line.joiner = ls.map Line.joiner := by
  induction h with
  | nil => rfl
  | cons h _ ih => rw [List.map_cons, ih, h.joiner, List.map_cons]

/-! ### Continuations -/

theorem Alike.isBlank (h : Alike k l m) : m.isBlank = l.isBlank :=
  (h.data.all_eq Bytes.asciiTest_isSpace).symm

theorem Alike.startsWithText (h : Alike k l m) : m.startsWithText = l.startsWithText := by
  have hmap := h.data.head?_map Bytes.asciiTest_isSpace
  unfold Line.startsWithText
  generalize l.data.head? = a at hmap
  generalize m.data.head? = b at hmap
  cases a <;> cases b <;> simp_all

theorem Alike.endsInText (h : Alike k l m) : m.endsInText = l.endsInText := by
  have hmap := h.data.getLast?_map Bytes.asciiTest_isSpace
  unfold Line.endsInText
  generalize l.data.getLast? = a at hmap
  generalize m.data.getLast? = b at hmap
  cases a <;> cases b <;> simp_all

/-- Anchors on lines that read alike. -/
def Anchor.Alike (k : Nat) (a b : Anchor) : Prop :=
  Line.Alike k a.line b.line ∧ b.adjacent = a.adjacent

theorem continuationFindingsAt_alike {a b : Option Anchor} (hab : Option.Rel (Anchor.Alike k) a b)
    (h : AlikeJoined k l m) :
    continuationFindingsAt b m = (continuationFindingsAt a l).map (Finding.shift k) := by
  have hend : (m.isContinued && m.eof) = (l.isContinued && l.eof) := by
    rw [h.isContinued]
    cases hl : l.isContinued with
    | false => rfl
    | true => rw [h.eof hl]
  have hplace : Option.Rel (Anchor.Alike k) a b → b.isNone = a.isNone ∧ b.isSome = a.isSome := by
    rintro (_ | _) <;> exact ⟨rfl, rfl⟩
  obtain ⟨hnone, hsome⟩ := hplace hab
  unfold continuationFindingsAt
  rw [hend, h.isContinued, h.isBlank, hnone, hsome, h.startsWithText, h.nestLevel]
  simp only [List.map_append, apply_ite (List.map (Finding.shift k)), List.map_cons, List.map_nil,
    h.finding]
  cases hab with
  | none => rfl
  | @some a b hab =>
    simp only [hab.1.endsInText, hab.2, apply_ite (List.map (Finding.shift k)), List.map_append,
      List.map_cons, List.map_nil]
    have hspan : (⟨.spacelessContinuation a.adjacent,
        { b.line.location with endLine := some m.number }⟩ : Finding) =
        Finding.shift k ⟨.spacelessContinuation a.adjacent,
          { a.line.location with endLine := some l.number }⟩ := by
      simp [Line.location, Finding.shift, Location.shift, hab.1.path, hab.1.number, h.number]
    rw [hspan]

theorem anchorAfter_alike {a b : Option Anchor} (hab : Option.Rel (Anchor.Alike k) a b)
    (h : AlikeJoined k l m) : Option.Rel (Anchor.Alike k) (anchorAfter a l) (anchorAfter b m) := by
  have hempty := h.data.isEmpty_eq
  unfold anchorAfter
  rw [h.settle.isContinued, ← hempty]
  split
  · cases hab with
    | none => exact .some ⟨h.toAlike, rfl⟩
    | some hab =>
      dsimp only
      split
      · exact .some ⟨hab.1, rfl⟩
      · exact .some ⟨h.toAlike, rfl⟩
  · exact .none

theorem continuationFindingsFrom_alike {ls ms : List Line} (h : List.Forall₂ (AlikeLoaded k) ls ms)
    {a b : Option Anchor} (hab : Option.Rel (Anchor.Alike k) a b) :
    continuationFindingsFrom b ms = (continuationFindingsFrom a ls).map (Finding.shift k) := by
  induction h generalizing a b with
  | nil => rfl
  | cons h _ ih =>
    rw [continuationFindingsFrom, continuationFindingsFrom, List.map_append,
      continuationFindingsAt_alike hab h.join, ih (anchorAfter_alike hab h.join)]

theorem continuationFindings_alike {ls ms : List Line} (h : List.Forall₂ (AlikeLoaded k) ls ms) :
    continuationFindings ms = (continuationFindings ls).map (Finding.shift k) :=
  continuationFindingsFrom_alike h .none

/-! ### Classes -/

theorem Alike.leadingSpace (h : Alike k l m) : m.leadingSpace = l.leadingSpace :=
  (h.data.takeWhile_eq Bytes.asciiTest_isSpace).symm

theorem Alike.hasBadSpace (h : Alike k l m) : m.hasBadSpace = l.hasBadSpace := by
  rw [Line.hasBadSpace, Line.hasBadSpace, h.leadingSpace]

/-- The first text of both lines is there in both, and is a number sign in both or in none. -/
theorem Alike.firstText? (h : Alike k l m) :
    Option.Rel (fun a b => (b = Byte.hash) = (a = Byte.hash)) l.firstText? m.firstText? := by
  have hmap := (h.data.dropWhile Bytes.asciiTest_isSpace).head?_map
    (Bytes.asciiTest_eq (show Byte.hash < 0x80 by decide))
  unfold Line.firstText?
  generalize (l.data.dropWhile Byte.isSpace).head? = a at hmap
  generalize (m.data.dropWhile Byte.isSpace).head? = b at hmap
  match a, b with
  | none, none => exact .none
  | none, some _ => cases hmap
  | some _, none => cases hmap
  | some _, some _ => exact .some (by simpa [beq_eq_beq, eq_comm] using hmap)

theorem Alike.textClass (h : Alike k l m) {a b : UInt8} (hab : (b = Byte.hash) = (a = Byte.hash)) :
    m.textClass b = l.textClass a := by
  have htab : (l.data.head? = some Byte.tab) = (m.data.head? = some Byte.tab) :=
    propext (h.data.head?_iff (by decide))
  simp only [Line.textClass, hab, htab]

theorem Alike.indentFindings (h : Alike k l m) {a b : UInt8}
    (hab : (b = Byte.hash) = (a = Byte.hash)) :
    m.indentFindings b = (l.indentFindings a).map (Finding.shift k) := by
  simp only [Line.indentFindings, hab, h.leadingSpace, h.finding,
    apply_ite (List.map (Finding.shift k)), List.map_cons, List.map_nil]

/-- What a survey makes of lines, further down. -/
def shiftResult {α : Type} (k : Nat) (r : α × List Finding) : α × List Finding :=
  (r.1, r.2.map (Finding.shift k))

theorem shiftResult_zero {α : Type} (r : α × List Finding) : shiftResult 0 r = r := by
  rw [shiftResult, Finding.map_shift_zero]

theorem classifyRun_alike {ls ms : List Line} (h : List.Forall₂ (AlikeJoined k) ls ms)
    (warned : Bool) : classifyRun warned ms = shiftResult k (classifyRun warned ls) := by
  induction h generalizing warned with
  | nil => rfl
  | @cons l m ls ms h _ ih =>
    have hbad : (if !warned && m.hasBadSpace then [m.finding .leadingBadSpace] else []) =
        (if !warned && l.hasBadSpace then [l.finding .leadingBadSpace] else []).map
          (Finding.shift k) := by
      simp only [h.hasBadSpace, h.finding, apply_ite (List.map (Finding.shift k)), List.map_cons,
        List.map_nil]
    have hfirst := h.firstText?
    rw [classifyRun, classifyRun, hbad, h.hasBadSpace, h.isContinued, ih]
    generalize l.firstText? = a at hfirst
    generalize m.firstText? = b at hfirst
    cases hfirst with
    | none =>
      dsimp only
      split <;> simp only [shiftResult, List.map_append]
    | some hab => simp [shiftResult, h.textClass hab, h.indentFindings hab]

theorem classify_alike {ls ms : List Line} (h : List.Forall₂ (AlikeJoined k) ls ms) :
    classify ms = shiftResult k (classify ls) := by
  have hrun := classifyRun_alike h false
  cases h with
  | nil => rfl
  | cons h _ =>
    have hempty := h.data.isEmpty_eq
    simp only [classify, ← hempty, hrun]
    split <;> rfl

theorem contains_hash_alike (h : Alike k l m) :
    m.data.contains Byte.hash = l.data.contains Byte.hash :=
  (h.data.contains_eq (by decide)).symm

theorem survey_alike (style : Style) {ls ms : List Line} (h : List.Forall₂ (AlikeJoined k) ls ms)
    (inside : Bool) :
    Lint.survey style inside ms = shiftResult k (Lint.survey style inside ls) := by
  induction h generalizing inside with
  | nil => rfl
  | @cons l m ls ms h hrest ih =>
    have hclass := classify_alike (.cons h hrest)
    simp only [Lint.survey, h.isContinued, ih, contains_hash_alike h.toAlike, hclass, h.finding]
    cases inside with
    | false =>
      simp only [shiftResult, if_false, Bool.false_eq_true, List.map_append,
        apply_ite (List.map (Finding.shift k)), List.map_cons, List.map_nil]
      rfl
    | true =>
      simp only [shiftResult, if_true, List.map_append, apply_ite (List.map (Finding.shift k)),
        List.map_cons, List.map_nil]

end Line

end MakeLint
