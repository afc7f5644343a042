import MakeLint.Lint
import MakeLint.Proofs.Line.Continuation
import MakeLint.Proofs.Line.Framing
import MakeLint.Proofs.Line.Width
import MakeLint.Proofs.Text.Encode
import Mathlib.Data.List.TakeWhile
/-!
# Lines in which nothing is found

What it takes for a line to pass the checks of continuations and of classes, said of the line as it
stands in the source and of the line before it. A run of lines needs no other memory: the anchor of a
continuation is there exactly if the line before ends in a backslash, and once no continued line is
blank, the class of a run is settled by its first line.
-/

namespace MakeLint

namespace Bytes

/-- Some byte is not white space. -/
def HasText (bytes : Bytes) : Prop :=
  ∃ b ∈ bytes, Byte.isSpace b = false

instance (bytes : Bytes) : Decidable (HasText bytes) :=
  inferInstanceAs (Decidable (∃ b ∈ bytes, Byte.isSpace b = false))

/-- The line before is there, and joins the next one to it. -/
def JoinsNext (before : Option Bytes) : Prop :=
  ∃ line ∈ before, EndsInBackslash line

instance (before : Option Bytes) : Decidable (JoinsNext before) :=
  inferInstanceAs (Decidable (∃ line ∈ before, EndsInBackslash line))

/-- The lines, each with the line before it. -/
def withPrevious : Option Bytes → List Bytes → List (Option Bytes × Bytes)
  | _, [] => []
  | before, line :: rest => (before, line) :: withPrevious (some line) rest

/-- A line that is joined to others without confusion. -/
structure ContinuesCleanly (before : Option Bytes) (line : Bytes) : Prop where
  begun : EndsInBackslash line → ¬ JoinsNext before → HasText line.dropBackslash
  ended : ¬ EndsInBackslash line → JoinsNext before → HasText line
  indented : JoinsNext before → ∀ b ∈ line.dropBackslash.head?, Byte.isSpace b = true

/-- A line whose class is plain to see, if it has one. -/
structure ReadsCleanly (style : Style) (before : Option Bytes) (line : Bytes) : Prop where
  uncommented : EndsInBackslash line → Byte.hash ∉ line
  blanks : ¬ JoinsNext before → ∀ b ∈ line.takeWhile Byte.isSpace, Byte.isBlank b = true
  comment : ¬ JoinsNext before → (line.dropWhile Byte.isSpace).head? = some Byte.hash →
    line.head? = some Byte.hash
  nonempty : ¬ JoinsNext before → style.onlyEmptyBlankLines = true → line = [] ∨ HasText line

theorem isWhite_eq_false_iff (bytes : Bytes) : bytes.isWhite = false ↔ HasText bytes := by
  simp [isWhite, HasText]

/-! ### The backslash is not white space -/

theorem takeWhile_dropBackslash (bytes : Bytes) :
    bytes.dropBackslash.takeWhile Byte.isSpace = bytes.takeWhile Byte.isSpace := by
  by_cases h : EndsInBackslash bytes
  · conv_rhs => rw [h.eq_append]
    generalize bytes.dropBackslash = xs
    induction xs with
    | nil => rfl
    | cons x xs ih => rw [List.cons_append, List.takeWhile_cons, List.takeWhile_cons, ih]
  · rw [dropBackslash_of_not_ends h]

theorem firstHash_dropBackslash (bytes : Bytes) :
    (bytes.dropBackslash.dropWhile Byte.isSpace).head? = some Byte.hash ↔
      (bytes.dropWhile Byte.isSpace).head? = some Byte.hash := by
  by_cases h : EndsInBackslash bytes
  · conv_rhs => rw [h.eq_append]
    generalize bytes.dropBackslash = xs
    induction xs with
    | nil => decide
    | cons x xs ih =>
      rw [List.cons_append, List.dropWhile_cons, List.dropWhile_cons]
      split
      · exact ih
      · rfl
  · rw [dropBackslash_of_not_ends h]

theorem hash_mem_dropBackslash (bytes : Bytes) :
    Byte.hash ∈ bytes.dropBackslash ↔ Byte.hash ∈ bytes := by
  by_cases h : EndsInBackslash bytes
  · conv_rhs => rw [h.eq_append]
    simp [Byte.hash, Byte.backslash]
  · rw [dropBackslash_of_not_ends h]

theorem head?_of_firstHash {bytes : Bytes}
    (h : (bytes.dropWhile Byte.isSpace).head? = some Byte.hash) :
    bytes.takeWhile Byte.isSpace = [] ↔ bytes.head? = some Byte.hash := by
  cases bytes with
  | nil => cases h
  | cons b bytes =>
    rw [List.dropWhile_cons] at h
    rw [List.takeWhile_cons]
    split at h
    · next hb =>
      rw [if_pos hb]
      constructor
      · intro hnil
        cases hnil
      · intro hhead
        obtain rfl := Option.some.inj hhead
        exact absurd hb (by decide)
    · next hb => simpa [hb] using h

end Bytes

namespace Line

open Bytes

/-! ### Continuations -/

theorem continuationFindingsAt_eq_nil_iff (before : Option Anchor) (l : Line) :
    continuationFindingsAt before l = [] ↔
      (l.isContinued = true → before.isSome = false → l.isBlank = false) ∧
        (l.isContinued = false → before.isSome = true → l.isBlank = false) ∧
        (l.isContinued = true → l.eof = false) ∧
        (before.isSome = true → l.startsWithText = false) := by
  have hif {p : Prop} [Decidable p] (f : Finding) : (if p then [f] else []) = [] ↔ ¬ p := by simp
  cases before with
  | none => simp [continuationFindingsAt, hif]
  | some anchor =>
    have htext (fs : List Finding) : (if l.startsWithText then
        fs ++ [l.finding .unindentedContinuation] else []) = [] ↔ l.startsWithText = false := by
      simp
    simp [continuationFindingsAt, hif, htext]

theorem isBlank_join_eq_false_iff (l : Line) :
    l.join.isBlank = false ↔ HasText l.data.dropBackslash := by
  rw [isBlank, isWhite_eq_false_iff, data_join]

theorem startsWithText_eq_false_iff (l : Line) :
    l.startsWithText = false ↔ ∀ b ∈ l.data.head?, Byte.isSpace b = true := by
  cases h : l.data.head? <;> simp [startsWithText, h]

/-- A joined line, at the end of its source if nothing follows, is as clean as the line it was. -/
theorem continuationFindingsAt_join_eq_nil_iff {before : Option Anchor} {previous : Option Bytes}
    (h : before.isSome = true ↔ JoinsNext previous) (l : Line) :
    continuationFindingsAt before l.join = [] ↔
      ContinuesCleanly previous l.data ∧ (l.eof = true → ¬ EndsInBackslash l.data) := by
  have hprevious : before.isSome = false ↔ ¬ JoinsNext previous := by
    rw [← h, Bool.not_eq_true]
  rw [continuationFindingsAt_eq_nil_iff, isBlank_join_eq_false_iff, isContinued_join,
    startsWithText_eq_false_iff, data_join, eof_join, h, hprevious, decide_eq_true_iff,
    decide_eq_false_iff_not]
  constructor
  · rintro ⟨hbegun, hended, heof, hindented⟩
    refine ⟨⟨hbegun, fun hends hjoined => ?_, hindented⟩, fun he hends => ?_⟩
    · have htext := hended hends hjoined
      rwa [dropBackslash_of_not_ends hends] at htext
    · rw [heof hends] at he
      cases he
  · rintro ⟨⟨hbegun, hended, hindented⟩, heof⟩
    refine ⟨hbegun, fun hends hjoined => ?_, fun hends => ?_, hindented⟩
    · rw [dropBackslash_of_not_ends hends]
      exact hended hends hjoined
    · rw [← Bool.not_eq_true]
      exact fun he => heof he hends

theorem continuationFindingsFrom_eq_nil_iff (path : String) (nestLevel : Nat) {n : Nat}
    {before : Option Anchor} {previous : Option Bytes}
    (h : before.isSome = true ↔ JoinsNext previous)
    (segments : List Bytes) :
    continuationFindingsFrom before (numbered path nestLevel n segments) = [] ↔
      (∀ p ∈ withPrevious previous segments, ContinuesCleanly p.1 p.2) ∧
        ∀ line ∈ segments.getLast?, ¬ EndsInBackslash line := by
  induction segments generalizing n before previous with
  | nil => simp [numbered, withPrevious, continuationFindingsFrom]
  | cons data segments ih =>
    rw [numbered, continuationFindingsFrom, List.append_eq_nil_iff,
      continuationFindingsAt_join_eq_nil_iff h, withPrevious, List.forall_mem_cons]
    cases segments with
    | nil => simp [numbered, withPrevious, continuationFindingsFrom]
    | cons next segments =>
      have hnext : (anchorAfter before (join ⟨data, path, n, false, nestLevel, .none⟩)).isSome =
          true ↔ JoinsNext (some data) := by
        rw [anchorAfter_isSome, isContinued_settle, isContinued_join, eof_join]
        simp [JoinsNext]
      rw [List.isEmpty_cons, ih hnext, List.getLast?_cons_cons]
      simp [and_assoc]

/-! ### Classes -/

theorem firstText?_eq_none_iff (l : Line) : l.firstText? = none ↔ l.isBlank = true := by
  rw [firstText?, List.head?_eq_none_iff, List.dropWhile_eq_nil_iff, isBlank, isWhite,
    List.all_eq_true]

theorem textClass_ne_blank (l : Line) (first : UInt8) : l.textClass first ≠ .blank := by
  unfold textClass
  split_ifs <;> simp

/-- A line that is not blank where it is continued has its class from its own text. -/
theorem classify_eq_nil_iff (style : Style) {l : Line}
    (h : l.isContinued = true → l.isBlank = false) (rest : List Line) :
    (classify (l :: rest)).2 = [] ∧
        ((classify (l :: rest)).1 = .blank → style.onlyEmptyBlankLines = false) ↔
      l.hasBadSpace = false ∧ (l.firstText? = some Byte.hash → l.leadingSpace = []) ∧
        (style.onlyEmptyBlankLines = true → l.data = [] ∨ l.isBlank = false) := by
  by_cases hempty : l.data = []
  · simp [classify, hempty, hasBadSpace, leadingSpace]
  · have hrun : classify (l :: rest) = classifyRun false (l :: rest) := by
      simp [classify, hempty]
    rw [hrun, classifyRun]
    cases hfirst : l.firstText? with
    | none =>
      have hblank := (firstText?_eq_none_iff l).mp hfirst
      have hplain : l.isContinued = false := by
        cases hl : l.isContinued with
        | false => rfl
        | true => rw [h hl] at hblank; cases hblank
      simp [hplain, hblank, hempty]
    | some first =>
      have hblank : l.isBlank = false := by
        rw [← Bool.not_eq_true, ← firstText?_eq_none_iff, hfirst]
        simp
      simp [hblank, textClass_ne_blank, indentFindings]

/-! ### The line behind a joined line -/

theorem hasBadSpace_join_eq_false_iff (l : Line) :
    l.join.hasBadSpace = false ↔
      ∀ b ∈ l.data.takeWhile Byte.isSpace, Byte.isBlank b = true := by
  rw [hasBadSpace, leadingSpace, data_join, takeWhile_dropBackslash]
  simp

theorem comment_join_iff (l : Line) :
    (l.join.firstText? = some Byte.hash → l.join.leadingSpace = []) ↔
      ((l.data.dropWhile Byte.isSpace).head? = some Byte.hash →
        l.data.head? = some Byte.hash) := by
  rw [firstText?, leadingSpace, data_join, firstHash_dropBackslash, takeWhile_dropBackslash]
  exact forall_congr' head?_of_firstHash

theorem nonempty_join_iff {l : Line}
    (hbegun : EndsInBackslash l.data → HasText l.data.dropBackslash) :
    l.join.data = [] ∨ l.join.isBlank = false ↔ l.data = [] ∨ HasText l.data := by
  rw [isBlank_join_eq_false_iff, data_join]
  by_cases hends : EndsInBackslash l.data
  · have htext : HasText l.data := ⟨Byte.backslash, List.mem_of_getLast? hends, by decide⟩
    exact iff_of_true (.inr (hbegun hends)) (.inr htext)
  · rw [dropBackslash_of_not_ends hends]

theorem hidden_join_iff (l : Line) :
    (if l.join.isContinued && l.join.data.contains Byte.hash then
      [l.join.finding .continuedComment] else []) = [] ↔
        (EndsInBackslash l.data → Byte.hash ∉ l.data) := by
  simp [isContinued_join, data_join, hash_mem_dropBackslash]

/-! ### Surveys -/

/-- What a survey finds at the first line, then what it finds in the others. -/
theorem survey_cons (style : Style) (inside : Bool) (l : Line) (rest : List Line) :
    (Lint.survey style inside (l :: rest)).2 =
      (if inside then [] else
        (classify (l :: rest)).2 ++
          (if (classify (l :: rest)).1 = .blank && style.onlyEmptyBlankLines then
            [l.finding .nonemptyBlank] else [])) ++
      ((if l.isContinued && l.data.contains Byte.hash then [l.finding .continuedComment] else []) ++
        (Lint.survey style l.isContinued rest).2) := by
  cases inside with
  | true => rfl
  | false => simp [Lint.survey]

/-- Where continuations are clean, what a survey finds at a line depends on that line alone. -/
theorem survey_cons_eq_nil_iff (style : Style) {inside : Bool} {previous : Option Bytes} {l : Line}
    (hinside : inside = true ↔ JoinsNext previous) (hclean : ContinuesCleanly previous l.data)
    (rest : List Line) :
    (Lint.survey style inside (l.join :: rest)).2 = [] ↔
      ReadsCleanly style previous l.data ∧
        (Lint.survey style l.join.isContinued rest).2 = [] := by
  rw [survey_cons, List.append_eq_nil_iff, List.append_eq_nil_iff, hidden_join_iff, ← and_assoc]
  apply and_congr_left'
  cases inside with
  | true =>
    -- a joined line is not classified, and only its hidden comment counts
    have hjoined := hinside.mp rfl
    refine ⟨fun h => ⟨h.2, ?_, ?_, ?_⟩, fun h => ⟨rfl, h.uncommented⟩⟩
    all_goals exact fun hnot => absurd hjoined hnot
  | false =>
    have hnot : ¬ JoinsNext previous := by
      rw [← hinside]
      decide
    have hbegun := fun hends => hclean.begun hends hnot
    have hblank : l.join.isContinued = true → l.join.isBlank = false := by
      rw [isContinued_join, decide_eq_true_iff, isBlank_join_eq_false_iff]
      exact hbegun
    have hfound : (if (classify (l.join :: rest)).1 = .blank && style.onlyEmptyBlankLines then
        [l.join.finding .nonemptyBlank] else []) = [] ↔
          ((classify (l.join :: rest)).1 = .blank → style.onlyEmptyBlankLines = false) := by
      simp
    rw [if_neg (by decide), List.append_eq_nil_iff, hfound, classify_eq_nil_iff style hblank rest,
      hasBadSpace_join_eq_false_iff, comment_join_iff, nonempty_join_iff hbegun]
    constructor
    · rintro ⟨⟨hblanks, hcomment, hnonempty⟩, huncommented⟩
      exact ⟨huncommented, fun _ => hblanks, fun _ => hcomment, fun _ => hnonempty⟩
    · intro h
      exact ⟨⟨h.blanks hnot, h.comment hnot, h.nonempty hnot⟩, h.uncommented⟩

theorem survey_eq_nil_iff (style : Style) (path : String) (nestLevel : Nat) {n : Nat}
    {inside : Bool} {previous : Option Bytes} (hinside : inside = true ↔ JoinsNext previous)
    {segments : List Bytes}
    (hclean : ∀ p ∈ withPrevious previous segments, ContinuesCleanly p.1 p.2)
    (hlast : ∀ line ∈ segments.getLast?, ¬ EndsInBackslash line) :
    (Lint.survey style inside (joinAll (numbered path nestLevel n segments))).2 = [] ↔
      ∀ p ∈ withPrevious previous segments, ReadsCleanly style p.1 p.2 := by
  induction segments generalizing n inside previous with
  | nil => simp [numbered, joinAll, Lint.survey, withPrevious]
  | cons data segments ih =>
    have hsettled : settle (join ⟨data, path, n, segments.isEmpty, nestLevel, .none⟩) =
        join ⟨data, path, n, segments.isEmpty, nestLevel, .none⟩ := by
      apply settle_eq_self
      intro heof
      rw [eof_join, List.isEmpty_iff] at heof
      subst heof
      rw [isContinued_join, decide_eq_false_iff_not]
      exact hlast data rfl
    have hlast : ∀ line ∈ segments.getLast?, ¬ EndsInBackslash line := by
      intro line hline
      exact hlast line (List.mem_getLast?_cons hline)
    rw [withPrevious, List.forall_mem_cons] at hclean ⊢
    rw [numbered, joinAll, List.map_cons, ← joinAll, hsettled,
      survey_cons_eq_nil_iff style hinside hclean.1]
    have hnext : (join ⟨data, path, n, segments.isEmpty, nestLevel, .none⟩).isContinued = true ↔
        JoinsNext (some data) := by
      rw [isContinued_join]
      simp [JoinsNext]
    exact and_congr_right' (ih hnext hclean.2 hlast)

end Line

namespace Lint

open Bytes Line

theorem lineFindings_eq_nil_iff (style : Style) (ls : List Line) :
    lineFindings style ls = [] ↔
      ∀ l ∈ ls, (∃ text, l.data = Utf8.encode text) ∧
        Columns.ofBytes l.data.dropBackslash ≤ style.maxLineLength := by
  rw [lineFindings, List.flatMap_eq_nil_iff]
  apply forall₂_congr
  intro l _
  rw [List.append_eq_nil_iff, encodingFindings, List.replicate_eq_nil_iff,
    Utf8.malformedCount_eq_zero, Utf8.isValid_iff, widthFindings_eq_nil_iff, columns_content_repair,
    content]

theorem repair_eq_self {l : Line} (h : ∃ text, l.data = Utf8.encode text) : l.repair = l := by
  rw [Line.repair, Utf8.repair_eq_self ((Utf8.isValid_iff l.data).mpr h)]

/-- Nothing is found in lines exactly if each is sound on its own and after the one before it. -/
theorem lines_eq_nil_iff (style : Style) (path : String) (nestLevel n : Nat)
    (segments : List Bytes) :
    (lines style (numbered path nestLevel n segments)).2 = [] ↔
      (∀ line ∈ segments, (∃ text, line = Utf8.encode text) ∧
        Columns.ofBytes line.dropBackslash ≤ style.maxLineLength) ∧
      (∀ line ∈ segments.getLast?, ¬ EndsInBackslash line) ∧
      ∀ p ∈ withPrevious none segments, ContinuesCleanly p.1 p.2 ∧ ReadsCleanly style p.1 p.2 := by
  have hbefore : (none : Option Anchor).isSome = true ↔ JoinsNext none := by simp [JoinsNext]
  have hinside : false = true ↔ JoinsNext none := by simp [JoinsNext]
  have hsegments (P : Bytes → Prop) :
      (∀ l ∈ numbered path nestLevel n segments, P l.data) ↔ ∀ line ∈ segments, P line := by
    conv_rhs => rw [← map_data_numbered path nestLevel n segments, List.forall_mem_map]
  rw [lines, List.append_eq_nil_iff, List.append_eq_nil_iff, lineFindings_eq_nil_iff, and_assoc,
    ← hsegments]
  apply and_congr_right
  intro hsound
  -- a sound line is not repaired, so the other checks see the segments themselves
  have hrepair : (numbered path nestLevel n segments).map Line.repair =
      numbered path nestLevel n segments := by
    conv_rhs => rw [← List.map_id (numbered path nestLevel n segments)]
    exact List.map_congr_left fun l hl => repair_eq_self (hsound l hl).1
  rw [hrepair, continuationFindings, continuationFindingsFrom_eq_nil_iff path nestLevel hbefore,
    and_assoc, forall₂_and, and_left_comm]
  apply and_congr_right
  intro hlast
  apply and_congr_right
  intro hclean
  exact survey_eq_nil_iff style path nestLevel hinside hclean hlast

end Lint

end MakeLint
