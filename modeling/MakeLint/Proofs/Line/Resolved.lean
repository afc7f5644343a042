import MakeLint.Proofs.Line.Pass
import MakeLint.Proofs.Lint.Findings
import MakeLint.Proofs.Sink
import Mathlib.Data.List.Find
import Mathlib.Order.Bounds.Basic
/-!
# Resolved continuations

Continuations are resolved in one pass over the lines, which remembers nothing of the lines before but
where the joined text leaves off. What it reports of a line can be said of the lines as they stand: the
line and the one before it end in a backslash or do not, and among the lines that the line is joined to
there is a last one that holds more than a backslash, or none. The pass remembers just that line.
-/

namespace MakeLint.Line

open Bytes

/-! ### Lines as they stand -/

section

variable (ls : List Line)

/-- The line at the index ends in a backslash. -/
def Continues (i : Nat) : Prop :=
  ∃ l ∈ ls[i]?, EndsInBackslash l.data

instance (i : Nat) : Decidable (Continues ls i) :=
  inferInstanceAs (Decidable (∃ l ∈ ls[i]?, EndsInBackslash l.data))

/-- The line at the index is joined to the line before it. -/
def Joined (i : Nat) : Prop :=
  0 < i ∧ Continues ls (i - 1)

instance (i : Nat) : Decidable (Joined ls i) :=
  inferInstanceAs (Decidable (0 < i ∧ Continues ls (i - 1)))

/-- The first of the lines holds text, and from there on each is continued up to the second. -/
def TextReaches (j i : Nat) : Prop :=
  (∃ l ∈ ls[j]?, l.data.dropBackslash ≠ []) ∧ ∀ k < i, j ≤ k → Continues ls k

instance (j i : Nat) : Decidable (TextReaches ls j i) :=
  inferInstanceAs (Decidable ((∃ l ∈ ls[j]?, l.data.dropBackslash ≠ []) ∧
    ∀ k < i, j ≤ k → Continues ls k))

/-- The last line whose text reaches the line at the index. -/
def leavesOff? (i : Nat) : Option Nat :=
  (List.range i).reverse.find? fun j => TextReaches ls j i

/-- Text that leaves off without white space, where the line at the index goes on without any. -/
def spacelessFinding? (i : Nat) (l : Line) : Option Finding := do
  let j ← leavesOff? ls i
  let m ← ls[j]?
  if m.data.dropBackslash.getLast?.any (!Byte.isSpace ·) then
    some ⟨.spacelessContinuation (i = j + 1), { m.location with endLine := some l.number }⟩
  else
    none

/-- What is to be reported of the line at the index. -/
def continuationReport (i : Nat) (l : Line) : List Finding :=
  let text := l.data.dropBackslash
  (if Continues ls i ∧ ¬ Joined ls i ∧ text.isWhite then [l.finding .continuedBlank] else []) ++
  (if ¬ Continues ls i ∧ Joined ls i ∧ text.isWhite then [l.finding .continuationToBlank] else []) ++
  (if Continues ls i ∧ i + 1 = ls.length then [l.finding (.continuationAtEnd (0 < l.nestLevel))]
    else []) ++
  if Joined ls i ∧ text.head?.any (!Byte.isSpace ·) then
    (spacelessFinding? ls i l).toList ++ [l.finding .unindentedContinuation]
  else
    []

/-- What is said of text that leaves off without white space. -/
def spacelessNotice? (i : Nat) (l : Line) : Option Notice := do
  let j ← leavesOff? ls i
  let m ← ls[j]?
  if m.data.dropBackslash.getLast?.any (!Byte.isSpace ·) then
    some (.warn .spacelessContinuation .confusing
      (some { m.location with endLine := some l.number })
      ("<backslash> is preceded by a non-white space character at the same time as the next line" ++
        (if i = j + 1 then "" else ", that consist of not only a <backslash>,") ++
        " begins with a non-white space character, this can cause confusion as the make utility " ++
        "will add a white space"))
  else
    none

/-- What is said of the line at the index. -/
def continuationNotices (i : Nat) (l : Line) : List Notice :=
  let text := l.data.dropBackslash
  (if Continues ls i ∧ ¬ Joined ls i ∧ text.isWhite then
    [Notice.warn .continuationOfBlank .confusing (some l.location)
      "initial line continuation on otherwise blank line, can cause confusion"]
  else []) ++
  (if ¬ Continues ls i ∧ Joined ls i ∧ text.isWhite then
    [Notice.warn .continuationToBlank .confusing (some l.location)
      "terminal line continuation to blank line, can cause confusion"]
  else []) ++
  (if Continues ls i ∧ i + 1 = ls.length then
    [Notice.warn .eofLineContinuation .unspecified (some l.location)
      ("line continuation at end of file, causes unspecified behaviour" ++
        if 0 < l.nestLevel then ", it is especially problematic in an included line" else ""),
      Notice.info .eofLineContinuation "this implementation will remove the line continuation"]
  else []) ++
  if Joined ls i ∧ text.head?.any (!Byte.isSpace ·) then
    (spacelessNotice? ls i l).toList ++
      [Notice.warn .unindentedContinuation .confusing (some l.location)
        "continuation of line is not indented, can cause confusion"]
  else
    []

/-- The last line is marked, and no other. -/
def OnlyLastMarked : Prop :=
  ∀ i l, ls[i]? = some l → (l.eof = true ↔ i + 1 = ls.length)

end

variable {ls : List Line} {i j : Nat} {l : Line}

theorem continues_iff (h : ls[i]? = some l) : Continues ls i ↔ EndsInBackslash l.data := by
  simp [Continues, h]

theorem joined_succ_iff : Joined ls (i + 1) ↔ Continues ls i := by
  simp [Joined]

/-! ### Where text leaves off -/

theorem find?_reverse_range_eq_some_iff {p : Nat → Bool} :
    (List.range i).reverse.find? p = some j ↔ IsGreatest {k | k < i ∧ p k = true} j := by
  induction i with
  | zero => simp [IsGreatest]
  | succ i ih =>
    rw [List.range_succ, List.reverse_append, List.reverse_singleton, List.singleton_append,
      List.find?_cons]
    cases hp : p i with
    | true =>
      have hgreatest : IsGreatest {k | k < i + 1 ∧ p k = true} i :=
        ⟨⟨Nat.lt_succ_self i, hp⟩, fun k hk => Nat.lt_succ_iff.mp hk.1⟩
      exact ⟨fun h => Option.some.inj h ▸ hgreatest,
        fun h => congrArg some (hgreatest.unique h)⟩
    | false =>
      have hset : {k | k < i + 1 ∧ p k = true} = {k | k < i ∧ p k = true} := by
        ext k
        refine and_congr_left fun hk => ?_
        have hne : k ≠ i := by
          rintro rfl
          simp [hp] at hk
        omega
      rw [hset]
      exact ih

theorem leavesOff?_eq_some_iff :
    leavesOff? ls i = some j ↔ IsGreatest {k | k < i ∧ TextReaches ls k i} j := by
  simp only [leavesOff?, find?_reverse_range_eq_some_iff, decide_eq_true_iff]

theorem joined_of_leavesOff? (h : leavesOff? ls i = some j) : Joined ls i := by
  obtain ⟨⟨hlt, -, hcontinues⟩, -⟩ := leavesOff?_eq_some_iff.mp h
  exact ⟨by omega, hcontinues (i - 1) (by omega) (by omega)⟩

theorem leavesOff?_eq_none (h : ¬ Joined ls i) : leavesOff? ls i = none := by
  cases hj : leavesOff? ls i with
  | none => rfl
  | some j => exact absurd (joined_of_leavesOff? hj) h

theorem textReaches_succ_iff (h : j < i) (hi : Continues ls i) :
    TextReaches ls j (i + 1) ↔ TextReaches ls j i := by
  refine and_congr_right fun _ => ⟨fun hcontinues k hk => hcontinues k (by omega), ?_⟩
  intro hcontinues k hk hjk
  rcases Nat.lt_succ_iff_lt_or_eq.mp hk with hk | rfl
  · exact hcontinues k hk hjk
  · exact hi

/-- After a continued line the text leaves off there, or where it did if the line adds none. -/
theorem leavesOff?_succ (hl : ls[i]? = some l) (h : EndsInBackslash l.data) :
    leavesOff? ls (i + 1) = if l.data.dropBackslash = [] then leavesOff? ls i else some i := by
  have hi : Continues ls i := (continues_iff hl).mpr h
  have hself : TextReaches ls i (i + 1) ↔ l.data.dropBackslash ≠ [] := by
    constructor
    · rintro ⟨⟨m, hm, htext⟩, -⟩
      rwa [Option.some.inj (hl.symm.trans hm)]
    · refine fun htext => ⟨⟨l, hl, htext⟩, fun k hk hik => ?_⟩
      rwa [show k = i by omega]
  have hbelow : (List.range i).reverse.find? (fun j => TextReaches ls j (i + 1)) =
      leavesOff? ls i := by
    apply List.find?_congr
    intro j hj
    have hlt : j < i := List.mem_range.mp (List.mem_reverse.mp hj)
    exact decide_eq_decide.mpr (textReaches_succ_iff hlt hi)
  rw [leavesOff?, List.range_succ, List.reverse_append, List.reverse_singleton,
    List.singleton_append, List.find?_cons, hbelow]
  by_cases htext : l.data.dropBackslash = []
  · rw [if_pos htext, decide_eq_false (fun hreaches => hself.mp hreaches htext)]
  · rw [if_neg htext, decide_eq_true (hself.mpr htext)]

/-! ### What the pass remembers -/

variable (ls i) in
/-- The pass knows whether the line at the index is joined, and if so where the text leaves off. -/
structure Remembers (before : Option Anchor) : Prop where
  joined : before.isSome = true ↔ Joined ls i
  text : ∀ a ∈ before, ∀ j ∈ leavesOff? ls i,
    ∃ m, ls[j]? = some m ∧ a = ⟨m.join, decide (i = j + 1)⟩
  noText : ∀ a ∈ before, leavesOff? ls i = none → a.line.data = []

theorem remembers_zero : Remembers ls 0 none :=
  ⟨by simp [Joined], by simp, by simp⟩

/-- A line that does not end in a backslash starts a new run. -/
theorem remembers_none (h : ¬ Joined ls i) : Remembers ls i none :=
  ⟨by simpa using h, by simp, by simp⟩

theorem remembers_self (hl : ls[i]? = some l) (h : EndsInBackslash l.data)
    (htext : l.data.dropBackslash = [] → leavesOff? ls i = none) :
    Remembers ls (i + 1) (some ⟨l.join, true⟩) := by
  have hjoined : Joined ls (i + 1) := joined_succ_iff.mpr ((continues_iff hl).mpr h)
  refine ⟨by simpa using hjoined, ?_, ?_⟩
  · intro a ha j hj
    obtain rfl := Option.some.inj ha
    rw [leavesOff?_succ hl h] at hj
    split at hj
    · next hempty =>
      rw [htext hempty] at hj
      cases hj
    · obtain rfl := Option.some.inj hj
      exact ⟨l, hl, by simp⟩
  · intro a ha hnone
    obtain rfl := Option.some.inj ha
    rw [leavesOff?_succ hl h] at hnone
    split at hnone
    · next hempty => rw [data_join, hempty]
    · cases hnone

/-- A line of only a backslash leaves the text where it was. -/
theorem Remembers.over {a : Anchor} (h : Remembers ls i (some a)) (hl : ls[i]? = some l)
    (hends : EndsInBackslash l.data) (hempty : l.data.dropBackslash = []) :
    Remembers ls (i + 1) (some ⟨a.line, false⟩) := by
  have hjoined : Joined ls (i + 1) := joined_succ_iff.mpr ((continues_iff hl).mpr hends)
  have hsame : leavesOff? ls (i + 1) = leavesOff? ls i := by
    rw [leavesOff?_succ hl hends, if_pos hempty]
  refine ⟨by simpa using hjoined, ?_, ?_⟩
  · intro b hb j hj
    obtain rfl := Option.some.inj hb
    rw [hsame] at hj
    obtain ⟨m, hm, rfl⟩ := h.text a rfl j hj
    have hlt : j < i := (leavesOff?_eq_some_iff.mp hj).1.1
    have hfar : decide (i + 1 = j + 1) = false := decide_eq_false (by omega)
    exact ⟨m, hm, by rw [hfar]⟩
  · intro b hb hnone
    obtain rfl := Option.some.inj hb
    rw [hsame] at hnone
    exact h.noText a rfl hnone

/-- One line: what is remembered after it is right for the next. -/
theorem Remembers.step {before : Option Anchor} (h : Remembers ls i before)
    (hl : ls[i]? = some l) (heof : l.eof = false) :
    Remembers ls (i + 1) (anchorAfter before l.join) := by
  have hcontinued : l.join.settle.isContinued = decide (EndsInBackslash l.data) := by
    rw [isContinued_settle, isContinued_join, eof_join, heof, Bool.not_false, Bool.and_true]
  unfold anchorAfter
  rw [hcontinued]
  by_cases hends : EndsInBackslash l.data
  · rw [if_pos (decide_eq_true hends)]
    cases before with
    | none =>
      have hnot : ¬ Joined ls i := by simpa using h.joined
      exact remembers_self hl hends fun _ => leavesOff?_eq_none hnot
    | some a =>
      dsimp only
      rw [data_join]
      split
      · next hempty => exact h.over hl hends (List.isEmpty_iff.mp hempty)
      · next hempty =>
        exact remembers_self hl hends fun hnil => absurd (List.isEmpty_iff.mpr hnil) hempty
  · rw [if_neg (by simpa using hends)]
    exact remembers_none fun hjoined => hends ((continues_iff hl).mp (joined_succ_iff.mp hjoined))

/-! ### What the pass reports -/

theorem nestLevel_join (l : Line) : l.join.nestLevel = l.nestLevel :=
  (Later.of_join l).nestLevel

theorem isBlank_join (l : Line) : l.join.isBlank = l.data.dropBackslash.isWhite :=
  congrArg isWhite (data_join l)

theorem startsWithText_join (l : Line) :
    l.join.startsWithText = l.data.dropBackslash.head?.any (!Byte.isSpace ·) := by
  rw [startsWithText, data_join]

theorem endsInText_join (l : Line) :
    l.join.endsInText = l.data.dropBackslash.getLast?.any (!Byte.isSpace ·) := by
  rw [endsInText, data_join]

/-- Joined text is found without white space where it is so between the line and the one that the
text leaves off on. -/
theorem Remembers.spacelessFinding? {a : Anchor} (h : Remembers ls i (some a)) (l : Line) :
    (if a.line.endsInText then
      [(⟨.spacelessContinuation a.adjacent,
        { a.line.location with endLine := some l.number }⟩ : Finding)]
    else []) = (spacelessFinding? ls i l).toList := by
  unfold Line.spacelessFinding?
  cases hj : leavesOff? ls i with
  | none =>
    have hempty : a.line.endsInText = false := by
      rw [endsInText, h.noText a rfl hj]
      rfl
    rw [hempty]
    rfl
  | some j =>
    obtain ⟨m, hm, rfl⟩ := h.text a rfl j hj
    simp only [endsInText_join, location_join, Option.bind_eq_bind, Option.bind_some, hm]
    split <;> rfl

/-- One line: what the pass finds. -/
theorem Remembers.continuationFindingsAt {before : Option Anchor} (h : Remembers ls i before)
    (hl : ls[i]? = some l) (heof : l.eof = true ↔ i + 1 = ls.length) :
    continuationFindingsAt before l.join = continuationReport ls i l := by
  have hcontinued : l.join.isContinued = decide (Continues ls i) := by
    rw [isContinued_join, decide_eq_decide, continues_iff hl]
  have hsome : before.isSome = decide (Joined ls i) := by
    rw [Bool.eq_iff_iff, h.joined, decide_eq_true_iff]
  have hnone : before.isNone = !decide (Joined ls i) := by
    rw [← Option.not_isSome, hsome]
  unfold Line.continuationFindingsAt continuationReport
  refine congrArg₂ (· ++ ·) ?_ ?_
  · simp [finding_join, eof_join, nestLevel_join, isBlank_join, hcontinued, hsome, hnone, heof,
      and_assoc]
  · cases before with
    | none =>
      have hnot : ¬ Joined ls i := by simpa using h.joined
      rw [if_neg fun htext => hnot htext.1]
    | some a =>
      have hjoined : Joined ls i := by simpa using h.joined
      simp only [startsWithText_join, hjoined, true_and]
      split
      · rw [finding_join, number_join, h.spacelessFinding? l]
      · rfl

/-- The whole run: what the pass finds in each line is told by the lines as they stand. -/
theorem Remembers.continuationFindingsFrom {before : Option Anchor} {rest : List Line}
    (h : i < ls.length → Remembers ls i before) (hmarked : OnlyLastMarked ls)
    (hrest : ls.drop i = rest) :
    continuationFindingsFrom before rest =
      (rest.zipIdx i).flatMap fun p => continuationReport ls p.2 p.1 := by
  induction rest generalizing i before with
  | nil => rfl
  | cons l rest ih =>
    obtain ⟨hl, hnext⟩ := getElem?_of_drop hrest
    have hhere : Remembers ls i before := h (List.getElem?_eq_some_iff.mp hl).1
    have hafter : i + 1 < ls.length → Remembers ls (i + 1) (anchorAfter before l.join) := by
      intro hlt
      apply hhere.step hl
      rw [Bool.eq_false_iff]
      intro heof
      have hlast := (hmarked i l hl).mp heof
      omega
    rw [Line.continuationFindingsFrom, hhere.continuationFindingsAt hl (hmarked i l hl),
      ih hafter hnext, List.zipIdx_cons, List.flatMap_cons]

theorem continuationFindings_eq (h : OnlyLastMarked ls) :
    continuationFindings ls = ls.zipIdx.flatMap fun p => continuationReport ls p.2 p.1 :=
  Remembers.continuationFindingsFrom (fun _ => remembers_zero) h List.drop_zero

/-! ### What is said -/

theorem flatMap_notices_spacelessFinding? (ls : List Line) (i : Nat) (l : Line) :
    (spacelessFinding? ls i l).toList.flatMap Finding.notices = (spacelessNotice? ls i l).toList := by
  unfold spacelessFinding? spacelessNotice?
  cases leavesOff? ls i with
  | none => rfl
  | some j =>
    change (ls[j]?.bind _).toList.flatMap _ = (ls[j]?.bind _).toList
    cases ls[j]? with
    | none => rfl
    | some m =>
      change (ite _ _ _ : Option Finding).toList.flatMap _ = (ite _ _ _ : Option Notice).toList
      split
      · by_cases hadjacent : i = j + 1
        · rw [decide_eq_true hadjacent, if_pos hadjacent]
          rfl
        · rw [decide_eq_false hadjacent, if_neg hadjacent]
          rfl
      · rfl

theorem flatMap_notices_continuationReport (ls : List Line) (i : Nat) (l : Line) :
    (continuationReport ls i l).flatMap Finding.notices = continuationNotices ls i l := by
  unfold continuationReport continuationNotices
  simp only [List.flatMap_append, apply_ite (List.flatMap Finding.notices), List.flatMap_nil,
    List.flatMap_singleton, flatMap_notices_spacelessFinding?]
  by_cases hincluded : 0 < l.nestLevel
  · rw [decide_eq_true hincluded, if_pos hincluded]
    rfl
  · rw [decide_eq_false hincluded, if_neg hincluded]
    rfl

/-! ### What the pass leaves -/

/-- The line at the index once its continuation has been resolved. -/
def resolved (ls : List Line) (i : Nat) (l : Line) : Line :=
  { l with
    data := l.data.dropBackslash
    joiner :=
      if ¬ EndsInBackslash l.data ∨ i + 1 = ls.length then .none
      else if l.data.dropBackslash.head? = some Byte.tab then .tab
      else .space }

theorem settle_join (heof : l.eof = true ↔ i + 1 = ls.length) :
    l.join.settle = resolved ls i l := by
  unfold resolved
  by_cases hends : EndsInBackslash l.data
  · have hjoin : l.join = { l with
        data := l.data.dropBackslash
        joiner := if l.data.dropBackslash.head? = some Byte.tab then .tab else .space } := by
      rw [dropBackslash_of_ends hends]
      exact if_pos hends
    by_cases hlast : i + 1 = ls.length
    · have hmark : l.join.eof = true := (eof_join l).trans (heof.mpr hlast)
      rw [settle, if_pos hmark, if_pos (.inr hlast), hjoin]
    · have hmark : ¬ l.join.eof = true := fun h => hlast (heof.mp ((eof_join l).symm.trans h))
      rw [settle, if_neg hmark, if_neg (by simp [hends, hlast]), hjoin]
  · have hjoin : l.join = { l with joiner := .none } := if_neg hends
    rw [if_pos (.inl hends), dropBackslash_of_not_ends hends, hjoin, settle]
    split <;> rfl

end MakeLint.Line

namespace MakeLint

open Line

/-- Continuations are resolved in one pass: each line loses its backslash and is joined by the white
space it starts with, and what is reported of it depends on the line, on the one before it, and on the
last line with text that it is joined to. -/
theorem Progress.step_continuations (s : Progress) (style : Style) (h : OnlyLastMarked s.lines) :
    let after := s.step (style, .continuations)
    after.lines.length = s.lines.length ∧
      (∀ i l, s.lines[i]? = some l → after.lines[i]? = some (resolved s.lines i l)) ∧
      after.sink.records.toList = s.sink.records.toList ++
        (s.lines.zipIdx.flatMap fun p => continuationNotices s.lines p.2 p.1).filterMap
          s.sink.registry.diagnostic? ∧
      ∀ i j, leavesOff? s.lines i = some j ↔
        IsGreatest {k | k < i ∧ TextReaches s.lines k i} j := by
  intro after
  refine ⟨List.length_map .., ?_, ?_, fun i j => leavesOff?_eq_some_iff⟩
  · intro i l hl
    change (joinAll s.lines)[i]? = _
    rw [joinAll, List.getElem?_map, hl, Option.map_some, settle_join (h i l hl)]
  · have hsaid : (continuationFindings s.lines).flatMap Finding.notices =
        s.lines.zipIdx.flatMap fun p => continuationNotices s.lines p.2 p.1 := by
      rw [continuationFindings_eq h, List.flatMap_assoc]
      simp only [flatMap_notices_continuationReport]
    rw [← hsaid]
    exact s.sink.records_addFindings _

/-- Text that goes on over a line of only a backslash and is continued up to the end of its source. -/
theorem Progress.step_continuations_over :
    let loaded := Progress.load .warnAll "Makefile" 1 [0x61, 0x5c, 0x0a, 0x5c, 0x0a, 0x62, 0x5c, 0x0a]
    let after := loaded.step ({}, .continuations)
    OnlyLastMarked loaded.lines ∧
      after.lines.map (fun l => (l.data, l.joiner)) =
        [([0x61], .space), ([], .space), ([0x62], .none)] ∧
      after.sink.records.toList =
        [⟨.eofLineContinuation, .warn, some .unspecified, some ⟨"Makefile", 3, none⟩,
            "line continuation at end of file, causes unspecified behaviour" ++
              ", it is especially problematic in an included line"⟩,
          ⟨.eofLineContinuation, .info, none, none,
            "this implementation will remove the line continuation"⟩,
          ⟨.spacelessContinuation, .warn, some .confusing, some ⟨"Makefile", 1, some 3⟩,
            "<backslash> is preceded by a non-white space character at the same time as the next " ++
              "line, that consist of not only a <backslash>, begins with a non-white space " ++
              "character, this can cause confusion as the make utility will add a white space"⟩,
          ⟨.unindentedContinuation, .warn, some .confusing, some ⟨"Makefile", 3, none⟩,
            "continuation of line is not indented, can cause confusion"⟩] := by
  intro loaded after
  have hmarked : OnlyLastMarked loaded.lines := fun _ _ hl => ((LaterAll.refl _).place hl).2.2.2.1
  obtain ⟨-, -, hrecords, -⟩ := Progress.step_continuations loaded {} hmarked
  refine ⟨hmarked, by decide, ?_⟩
  rw [hrecords]
  decide +kernel

end MakeLint
