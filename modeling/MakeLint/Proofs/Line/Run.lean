import MakeLint.Proofs.Line.Pass
import MakeLint.Proofs.Lint.Append
import MakeLint.Proofs.Lint.Clean
import MakeLint.Proofs.Sink
import Mathlib.Data.Nat.Find
import Mathlib.Order.Bounds.Basic
/-!
# Runs of joined lines

A line and the lines that it is continued on are a run, up to the first line that is not continued. The
run has its class from its first line with text, whatever white space stands before it, and bad white
space is looked for up to that line and no further. Whether it has been found is all that is remembered
from one line to the next.
-/

namespace MakeLint.Line

open Bytes

/-! ### Lines by their indices -/

section

variable (ls : List Line)

/-- The line at the index goes on in the next one. -/
def ContinuedAt (i : Nat) : Prop :=
  ∃ l ∈ ls[i]?, l.isContinued = true

instance (i : Nat) : Decidable (ContinuedAt ls i) :=
  inferInstanceAs (Decidable (∃ l ∈ ls[i]?, l.isContinued = true))

/-- The line at the second index belongs to the run that goes on from the first. -/
def RunsTo (i j : Nat) : Prop :=
  i ≤ j ∧ ∀ k < j, i ≤ k → ContinuedAt ls k

instance (i j : Nat) : Decidable (RunsTo ls i j) :=
  inferInstanceAs (Decidable (i ≤ j ∧ ∀ k < j, i ≤ k → ContinuedAt ls k))

/-- The line at the index is not all white space. -/
def TextAt (i : Nat) : Prop :=
  ∃ l ∈ ls[i]?, HasText l.data

instance (i : Nat) : Decidable (TextAt ls i) :=
  inferInstanceAs (Decidable (∃ l ∈ ls[i]?, HasText l.data))

/-- The white space that the line at the index starts with is not all spaces and tabs. -/
def BadSpaceAt (i : Nat) : Prop :=
  ∃ l ∈ ls[i]?, ∃ b ∈ l.data.takeWhile Byte.isSpace, Byte.isBlank b = false

instance (i : Nat) : Decidable (BadSpaceAt ls i) :=
  inferInstanceAs (Decidable (∃ l ∈ ls[i]?, ∃ b ∈ l.data.takeWhile Byte.isSpace,
    Byte.isBlank b = false))

/-- The text of the line at the index starts with a number sign. -/
def CommentAt (i : Nat) : Prop :=
  ∃ l ∈ ls[i]?, (l.data.dropWhile Byte.isSpace).head? = some Byte.hash

instance (i : Nat) : Decidable (CommentAt ls i) :=
  inferInstanceAs (Decidable (∃ l ∈ ls[i]?,
    (l.data.dropWhile Byte.isSpace).head? = some Byte.hash))

/-- The line at the index starts with the byte. -/
def StartsAt (b : UInt8) (i : Nat) : Prop :=
  ∃ l ∈ ls[i]?, l.data.head? = some b

instance (b : UInt8) (i : Nat) : Decidable (StartsAt ls b i) :=
  inferInstanceAs (Decidable (∃ l ∈ ls[i]?, l.data.head? = some b))

/-- The first line of the run from an index on for which something holds. -/
def firstOfRun? (p : Nat → Prop) [DecidablePred p] (i : Nat) : Option Nat :=
  (List.range ls.length).find? fun k => RunsTo ls i k ∧ p k

/-- The first line with text in the run from an index on. -/
def textLine? (i : Nat) : Option Nat :=
  firstOfRun? ls (TextAt ls) i

/-- The first line with bad white space in the run from an index on, no further than its text. -/
def badSpaceLine? (i : Nat) : Option Nat :=
  (firstOfRun? ls (fun k => BadSpaceAt ls k ∨ TextAt ls k) i).filter fun k => BadSpaceAt ls k

/-- The class of the run from an index on. -/
def runClass (i : Nat) : LineClass :=
  match textLine? ls i with
  | none => .blank
  | some k =>
    if CommentAt ls k then .comment
    else if StartsAt ls Byte.tab k then .commandLine
    else .other

def badSpaceFindings (path : String) (i : Nat) : List Finding :=
  (badSpaceLine? ls i).toList.map fun j => ⟨.leadingBadSpace, { path := path, line := j + 1 }⟩

def commentFindings (path : String) (i : Nat) : List Finding :=
  ((textLine? ls i).filter fun k => CommentAt ls k ∧ ¬ StartsAt ls Byte.hash k).toList.map fun k =>
    ⟨.indentedComment, { path := path, line := k + 1 }⟩

/-- Each line is where its index says. -/
def Placed (path : String) : Prop :=
  ∀ i (l : Line), ls[i]? = some l → l.location = { path := path, line := i + 1 }

end

variable {ls : List Line} {i j k : Nat} {l : Line}

/-- Lines stay in their places under passes. -/
theorem LaterAll.placed {path : String} {nestLevel : Nat} {bytes : Bytes}
    (h : LaterAll (ofBytes path nestLevel bytes) ls) : Placed ls path := by
  intro i l hl
  obtain ⟨hnumber, hpath, -⟩ := h.place hl
  rw [Line.location, hnumber, hpath]

theorem continuedAt_iff (h : ls[i]? = some l) : ContinuedAt ls i ↔ l.isContinued = true := by
  simp [ContinuedAt, h]

theorem TextAt.lt_length (h : TextAt ls i) : i < ls.length := by
  obtain ⟨l, hl, -⟩ := h
  exact (List.getElem?_eq_some_iff.mp hl).1

theorem BadSpaceAt.lt_length (h : BadSpaceAt ls i) : i < ls.length := by
  obtain ⟨l, hl, -⟩ := h
  exact (List.getElem?_eq_some_iff.mp hl).1

/-! ### The first line of a run -/

theorem runsTo_iff : RunsTo ls i j ↔ j = i ∨ ContinuedAt ls i ∧ RunsTo ls (i + 1) j := by
  constructor
  · rintro ⟨hle, hruns⟩
    rcases Nat.eq_or_lt_of_le hle with rfl | hlt
    · exact .inl rfl
    · exact .inr ⟨hruns i hlt le_rfl, hlt, fun k hk hik => hruns k hk (by omega)⟩
  · rintro (rfl | ⟨hcontinued, hle, hruns⟩)
    · exact ⟨le_rfl, fun k hk hik => absurd hk (by omega)⟩
    · refine ⟨by omega, fun k hk hik => ?_⟩
      rcases Nat.eq_or_lt_of_le hik with rfl | hlt
      · exact hcontinued
      · exact hruns k hk hlt

theorem RunsTo.trans (h : RunsTo ls i j) (h' : RunsTo ls j k) : RunsTo ls i k := by
  refine ⟨h.1.trans h'.1, fun m hm him => ?_⟩
  rcases Nat.lt_or_ge m j with hmj | hjm
  · exact h.2 m hmj him
  · exact h'.2 m hm hjm

section

variable {p : Nat → Prop} [DecidablePred p]

theorem firstOfRun?_eq_some_iff :
    firstOfRun? ls p i = some k ↔ IsLeast {k | k < ls.length ∧ RunsTo ls i k ∧ p k} k := by
  rw [firstOfRun?, List.find?_range_eq_some]
  simp only [decide_eq_true_eq, List.mem_range, Bool.not_eq_true', decide_eq_false_iff_not]
  constructor
  · rintro ⟨hp, hk, hbefore⟩
    refine ⟨⟨hk, hp⟩, fun m hm => ?_⟩
    by_contra hlt
    exact hbefore m (by omega) hm.2
  · rintro ⟨⟨hk, hp⟩, hleast⟩
    refine ⟨hp, hk, fun m hm hpm => ?_⟩
    have hle := hleast ⟨by omega, hpm⟩
    omega

theorem firstOfRun?_of_le (h : ls.length ≤ i) : firstOfRun? ls p i = none := by
  rw [Option.eq_none_iff_forall_ne_some]
  intro k hk
  obtain ⟨⟨hlt, ⟨hle, -⟩, -⟩, -⟩ := firstOfRun?_eq_some_iff.mp hk
  omega

/-- The first line of a run is the line at the index, or one after it if the line is continued. -/
theorem firstOfRun?_step (hl : ls[i]? = some l) :
    firstOfRun? ls p i =
      if p i then some i else if l.isContinued then firstOfRun? ls p (i + 1) else none := by
  have hlt : i < ls.length := (List.getElem?_eq_some_iff.mp hl).1
  by_cases hp : p i
  · rw [if_pos hp, firstOfRun?_eq_some_iff]
    exact ⟨⟨hlt, runsTo_iff.mpr (.inl rfl), hp⟩, fun k hk => hk.2.1.1⟩
  · rw [if_neg hp]
    by_cases hcontinued : l.isContinued = true
    · rw [if_pos hcontinued]
      have hset : {k | k < ls.length ∧ RunsTo ls i k ∧ p k} =
          {k | k < ls.length ∧ RunsTo ls (i + 1) k ∧ p k} := by
        ext k
        refine and_congr_right fun _ => and_congr_left fun hpk => ?_
        have hne : k ≠ i := by
          rintro rfl
          exact hp hpk
        rw [runsTo_iff, continuedAt_iff hl]
        simp [hne, hcontinued]
      apply Option.ext
      intro k
      rw [firstOfRun?_eq_some_iff, hset, ← firstOfRun?_eq_some_iff]
    · rw [if_neg hcontinued, Option.eq_none_iff_forall_ne_some]
      intro k hk
      obtain ⟨⟨-, hruns, hpk⟩, -⟩ := firstOfRun?_eq_some_iff.mp hk
      rcases runsTo_iff.mp hruns with rfl | ⟨hgoes, -⟩
      · exact hp hpk
      · exact hcontinued ((continuedAt_iff hl).mp hgoes)

end

theorem textLine?_eq_some_iff :
    textLine? ls i = some k ↔ IsLeast {k | RunsTo ls i k ∧ TextAt ls k} k := by
  have hset : {k | k < ls.length ∧ RunsTo ls i k ∧ TextAt ls k} =
      {k | RunsTo ls i k ∧ TextAt ls k} := by
    ext k
    exact and_iff_right_of_imp fun h => h.2.lt_length
  rw [textLine?, firstOfRun?_eq_some_iff, hset]

theorem textLine?_eq_none_iff : textLine? ls i = none ↔ ∀ k, RunsTo ls i k → ¬ TextAt ls k := by
  rw [textLine?, firstOfRun?, List.find?_eq_none]
  simp only [List.mem_range, decide_eq_true_eq, not_and]
  exact forall_congr' fun k =>
    ⟨fun h hk htext => h htext.lt_length hk htext, fun h _ hk => h hk⟩

/-- What is no further than the first line with text is no further than any. -/
theorem le_textLine?_iff :
    (∀ k ∈ textLine? ls i, j ≤ k) ↔ ∀ k, RunsTo ls i k → TextAt ls k → j ≤ k := by
  cases hfirst : textLine? ls i with
  | none =>
    have hnone := textLine?_eq_none_iff.mp hfirst
    exact iff_of_true (by simp) fun k hk htext => absurd htext (hnone k hk)
  | some m =>
    obtain ⟨⟨hm, htext⟩, hleast⟩ := textLine?_eq_some_iff.mp hfirst
    constructor
    · intro hle k hk hktext
      exact (hle m rfl).trans (hleast ⟨hk, hktext⟩)
    · intro hle k hk
      obtain rfl := Option.some.inj hk
      exact hle m hm htext

/-- The line at which the search for bad white space ends has some, or else text. -/
theorem badSpaceLine?_eq_some_iff :
    badSpaceLine? ls i = some j ↔ IsLeast {j | RunsTo ls i j ∧ BadSpaceAt ls j ∧
      ∀ k ∈ textLine? ls i, j ≤ k} j := by
  rw [badSpaceLine?, Option.filter_eq_some_iff, firstOfRun?_eq_some_iff, decide_eq_true_iff]
  simp only [le_textLine?_iff]
  constructor
  · rintro ⟨⟨⟨-, hruns, -⟩, hleast⟩, hbad⟩
    refine ⟨⟨hruns, hbad, fun k hk htext => hleast ⟨htext.lt_length, hk, .inr htext⟩⟩, ?_⟩
    rintro m ⟨hm, hmbad, -⟩
    exact hleast ⟨hmbad.lt_length, hm, .inl hmbad⟩
  · rintro ⟨⟨hruns, hbad, hbefore⟩, hleast⟩
    refine ⟨⟨⟨hbad.lt_length, hruns, .inl hbad⟩, ?_⟩, hbad⟩
    rintro m ⟨-, hm, hmbad | htext⟩
    · by_contra hlt
      -- no text stands before the bad white space, so none stands before what comes earlier
      have htext : ∀ k, RunsTo ls i k → TextAt ls k → m ≤ k := fun k hk htext =>
        (Nat.le_of_not_le hlt).trans (hbefore k hk htext)
      exact hlt (hleast ⟨hm, hmbad, htext⟩)
    · exact hbefore m hm htext

/-! ### One line -/

theorem textAt_iff (hl : ls[i]? = some l) : TextAt ls i ↔ l.firstText? ≠ none := by
  rw [Ne, firstText?_eq_none_iff, Bool.not_eq_true, isBlank, isWhite_eq_false_iff]
  simp [TextAt, hl]

theorem badSpaceAt_iff (hl : ls[i]? = some l) : BadSpaceAt ls i ↔ l.hasBadSpace = true := by
  simp [BadSpaceAt, hl, hasBadSpace, leadingSpace]

theorem commentAt_iff (hl : ls[i]? = some l) :
    CommentAt ls i ↔ l.firstText? = some Byte.hash := by
  simp [CommentAt, hl, firstText?]

theorem textLine?_step (hl : ls[i]? = some l) :
    textLine? ls i =
      if l.firstText? ≠ none then some i else if l.isContinued then textLine? ls (i + 1) else none := by
  simp only [textLine?, firstOfRun?_step hl, textAt_iff hl]

theorem badSpaceLine?_step (hl : ls[i]? = some l) :
    badSpaceLine? ls i =
      if l.hasBadSpace then some i
      else if l.firstText? = none ∧ l.isContinued then badSpaceLine? ls (i + 1)
      else none := by
  rw [badSpaceLine?, firstOfRun?_step hl, badSpaceLine?]
  simp only [badSpaceAt_iff hl, textAt_iff hl]
  by_cases hbad : l.hasBadSpace = true
  · simp [hbad, badSpaceAt_iff hl]
  · cases hfirst : l.firstText? with
    | none => cases l.isContinued <;> simp [hbad]
    | some first => simp [hbad, badSpaceAt_iff hl]

/-! ### The whole run -/

/-- A line with text settles the class, and any other leaves it to the next line of the run. -/
theorem runClass_step (hl : ls[i]? = some l) :
    runClass ls i =
      match l.firstText? with
      | some first => l.textClass first
      | none => if l.isContinued then runClass ls (i + 1) else .blank := by
  have hstarts : StartsAt ls Byte.tab i ↔ l.data.head? = some Byte.tab := by
    simp [StartsAt, hl]
  rw [runClass, textLine?_step hl]
  cases hfirst : l.firstText? with
  | some first => simp [commentAt_iff hl, hstarts, hfirst, textClass]
  | none => cases l.isContinued <;> simp [runClass]

theorem badSpaceFindings_step {path : String} (hplaced : Placed ls path) (hl : ls[i]? = some l) :
    badSpaceFindings ls path i =
      if l.hasBadSpace then [l.finding .leadingBadSpace]
      else if l.firstText? = none ∧ l.isContinued then badSpaceFindings ls path (i + 1)
      else [] := by
  rw [Line.finding, hplaced i l hl, badSpaceFindings, badSpaceLine?_step hl]
  split_ifs <;> rfl

theorem commentFindings_step {path : String} (hplaced : Placed ls path) (hl : ls[i]? = some l) :
    commentFindings ls path i =
      match l.firstText? with
      | some first => l.indentFindings first
      | none => if l.isContinued then commentFindings ls path (i + 1) else [] := by
  rw [commentFindings, textLine?_step hl]
  cases hfirst : l.firstText? with
  | some first =>
    have hcomment : CommentAt ls i ↔ first = Byte.hash := by
      rw [commentAt_iff hl, hfirst, Option.some_inj]
    have hstarts : StartsAt ls Byte.hash i ↔ l.data.head? = some Byte.hash := by
      simp [StartsAt, hl]
    dsimp only
    rw [indentFindings, Line.finding, hplaced i l hl]
    by_cases hhash : first = Byte.hash
    · have hindented : l.leadingSpace = [] ↔ l.data.head? = some Byte.hash :=
        head?_of_firstHash (hhash ▸ hfirst)
      by_cases hhead : l.data.head? = some Byte.hash
      · simp [hcomment, hstarts, hhash, hhead, hindented.mpr hhead]
      · simp [hcomment, hstarts, hhash, hhead, mt hindented.mp hhead]
    · simp [hcomment, hhash]
  | none => cases l.isContinued <;> simp [commentFindings]

/-- Where the run from an index on is classified, its class does not depend on what has been found. -/
theorem fst_classifyRun_drop (warned : Bool) {rest : List Line} (hrest : ls.drop i = rest) :
    (classifyRun warned rest).1 = runClass ls i := by
  induction rest generalizing i warned with
  | nil =>
    have htext : textLine? ls i = none := firstOfRun?_of_le (List.drop_eq_nil_iff.mp hrest)
    rw [runClass, htext]
    rfl
  | cons l rest ih =>
    obtain ⟨hl, hnext⟩ := getElem?_of_drop hrest
    have hrun := ih (warned || l.hasBadSpace) hnext
    rw [classifyRun, runClass_step hl]
    cases l.firstText? with
    | some first => rfl
    | none => cases hcontinued : l.isContinued <;> simp [hrun]

/-- What is found in it does: bad white space is found once. -/
theorem snd_classifyRun_drop {path : String} (hplaced : Placed ls path) (warned : Bool)
    {rest : List Line} (hrest : ls.drop i = rest) :
    (classifyRun warned rest).2 =
      (if warned then [] else badSpaceFindings ls path i) ++ commentFindings ls path i := by
  induction rest generalizing i warned with
  | nil =>
    have hle : ls.length ≤ i := List.drop_eq_nil_iff.mp hrest
    have htext : textLine? ls i = none := firstOfRun?_of_le hle
    have hbad : badSpaceLine? ls i = none := by rw [badSpaceLine?, firstOfRun?_of_le hle]; rfl
    simp [classifyRun, badSpaceFindings, commentFindings, htext, hbad]
  | cons l rest ih =>
    obtain ⟨hl, hnext⟩ := getElem?_of_drop hrest
    have hrun := ih (warned || l.hasBadSpace) hnext
    rw [classifyRun, badSpaceFindings_step hplaced hl, commentFindings_step hplaced hl]
    cases l.firstText? with
    | some first => cases warned <;> cases l.hasBadSpace <;> simp
    | none =>
      cases l.isContinued with
      | false => cases warned <;> cases l.hasBadSpace <;> simp
      | true =>
        simp only [if_true, hrun]
        cases warned <;> cases l.hasBadSpace <;> simp

theorem classify_drop {path : String} (hplaced : Placed ls path) (hl : ls[i]? = some l) :
    classify (ls.drop i) =
      if l.data = [] then (.empty, [])
      else (runClass ls i, badSpaceFindings ls path i ++ commentFindings ls path i) := by
  have hrun : classifyRun false (ls.drop i) =
      (runClass ls i, badSpaceFindings ls path i ++ commentFindings ls path i) :=
    Prod.ext (fst_classifyRun_drop false rfl) (snd_classifyRun_drop hplaced false rfl)
  have hcons : ls.drop i = l :: ls.drop (i + 1) := by
    obtain ⟨hlt, rfl⟩ := List.getElem?_eq_some_iff.mp hl
    exact List.drop_eq_getElem_cons hlt
  rw [hcons] at hrun ⊢
  rw [classify, hrun]
  simp

/-! ### What settles the class -/

/-- The class of a run without text, and the three that its first line with text may give it. -/
theorem runClass_eq_iff (ls : List Line) (i : Nat) :
    (runClass ls i = .blank ↔ textLine? ls i = none) ∧
      (runClass ls i = .comment ↔ ∃ k ∈ textLine? ls i, CommentAt ls k) ∧
      (runClass ls i = .commandLine ↔
        ∃ k ∈ textLine? ls i, ¬ CommentAt ls k ∧ StartsAt ls Byte.tab k) ∧
      (runClass ls i = .other ↔
        ∃ k ∈ textLine? ls i, ¬ CommentAt ls k ∧ ¬ StartsAt ls Byte.tab k) := by
  unfold runClass
  cases textLine? ls i with
  | none => simp
  | some k =>
    by_cases hcomment : CommentAt ls k
    · simp [hcomment]
    · by_cases htab : StartsAt ls Byte.tab k
      · simp [hcomment, htab]
      · simp [hcomment, htab]

/-! ### Where the run ends -/

/-- Only the lines of the run are read. -/
theorem classify_congr {ms : List Line} {last : Nat} (hle : i ≤ last)
    (hlast : ∃ l ∈ ls[last]?, l.isContinued = false)
    (h : ∀ j, i ≤ j → j ≤ last → ms[j]? = ls[j]?) :
    classify (ms.drop i) = classify (ls.drop i) := by
  obtain ⟨l, hl, hends⟩ := hlast
  have hsame : (ms.drop i).take (last + 1 - i) = (ls.drop i).take (last + 1 - i) := by
    apply List.ext_getElem?
    intro j
    rw [List.getElem?_take, List.getElem?_take, List.getElem?_drop, List.getElem?_drop]
    split
    · exact h (i + j) (by omega) (by omega)
    · rfl
  have hclosed : Closed ((ls.drop i).take (last + 1 - i)) := by
    have hlt : last < ls.length := (List.getElem?_eq_some_iff.mp hl).1
    have hlength : ((ls.drop i).take (last + 1 - i)).length = last - i + 1 := by
      rw [List.length_take, List.length_drop]
      omega
    refine ⟨l, ?_, hends⟩
    rw [List.getLast?_eq_getElem?, hlength, Nat.add_sub_cancel, List.getElem?_take,
      if_pos (by omega), List.getElem?_drop, Nat.add_sub_cancel' hle]
    exact hl
  have hms := List.take_append_drop (last + 1 - i) (ms.drop i)
  have hls := List.take_append_drop (last + 1 - i) (ls.drop i)
  rw [← hms, ← hls, hsame, classify_append hclosed, classify_append hclosed]

/-- The run reaches the lines up to the first that is not continued. -/
theorem runsTo_iff_le {last : Nat}
    (hlast : IsLeast {j | i ≤ j ∧ ∃ m ∈ ls[j]?, m.isContinued = false} last) :
    RunsTo ls i j ↔ i ≤ j ∧ j ≤ last := by
  obtain ⟨⟨hle, m, hm, hends⟩, hleast⟩ := hlast
  constructor
  · rintro ⟨hij, hruns⟩
    refine ⟨hij, ?_⟩
    by_contra hlt
    have hgoes := (continuedAt_iff hm).mp (hruns last (by omega) hle)
    rw [hends] at hgoes
    cases hgoes
  · rintro ⟨hij, hjl⟩
    refine ⟨hij, fun k hk hik => ?_⟩
    have hlt : k < ls.length := by
      have hlength := (List.getElem?_eq_some_iff.mp hm).1
      omega
    have hget : ls[k]? = some ls[k] := List.getElem?_eq_getElem hlt
    rw [continuedAt_iff hget]
    by_contra hcontinued
    have hbefore := hleast ⟨hik, ls[k], hget, by simpa using hcontinued⟩
    omega

theorem exists_runEnd (hclosed : ∀ m ∈ ls.getLast?, m.isContinued = false) (hl : ls[i]? = some l) :
    ∃ last, IsLeast {j | i ≤ j ∧ ∃ m ∈ ls[j]?, m.isContinued = false} last := by
  have hlt : i < ls.length := (List.getElem?_eq_some_iff.mp hl).1
  have hlast : ls.getLast? = some ls[ls.length - 1] := by
    rw [List.getLast?_eq_getElem?, List.getElem?_eq_getElem (by omega)]
  have hexists : ∃ j, i ≤ j ∧ ∃ m ∈ ls[j]?, m.isContinued = false := by
    refine ⟨ls.length - 1, by omega, ls[ls.length - 1], ?_, hclosed _ hlast⟩
    rw [← List.getLast?_eq_getElem?, hlast]
    rfl
  exact ⟨Nat.find hexists, Nat.find_spec hexists, fun j hj => Nat.find_min' hexists hj⟩

end MakeLint.Line

namespace MakeLint

open Line

/-- Whatever passes have been made over a source, once its continuations are resolved a line that is not
empty has the class of the first line with text in its run. Bad white space is reported once, where it
is first found up to that text, and so is a comment that does not start its line; what comes after the
run is not looked at. -/
theorem Progress.step_classify (r : Registry) (path : String) (nestLevel : Nat) (bytes : Bytes)
    (todo : List (Style × Pass)) (style : Style) {i : Nat} {l : Line}
    (hl : (((load r path nestLevel bytes).run todo).step (style, .continuations)).lines[i]? = some l)
    (hdata : l.data ≠ []) :
    let resolved := ((load r path nestLevel bytes).run todo).step (style, .continuations)
    let ls := resolved.lines
    let cls := (classify (ls.drop i)).1
    let said : List Notice :=
      ((badSpaceLine? ls i).toList.flatMap fun j =>
        [Notice.warn .leadingBadSpace .undefined (some { path := path, line := j + 1 })
          ("line contains leading white space other than <space> and <tab>, which causes undefined " ++
            "behaviour")]) ++
      ((textLine? ls i).filter fun k =>
          CommentAt ls k ∧ ¬ StartsAt ls Byte.hash k).toList.flatMap fun k =>
        [Notice.warn .illegalIndent .undefined (some { path := path, line := k + 1 })
            "comment has leading white space, which is not legal",
          Notice.info .illegalIndent "this implementation will recognise it as a comment line"]
    ∃ last, IsLeast {j | i ≤ j ∧ ∃ m ∈ ls[j]?, m.isContinued = false} last ∧
      (∀ k, textLine? ls i = some k ↔ IsLeast {k | i ≤ k ∧ k ≤ last ∧ TextAt ls k} k) ∧
      (∀ j, badSpaceLine? ls i = some j ↔
        IsLeast {j | i ≤ j ∧ j ≤ last ∧ BadSpaceAt ls j ∧ ∀ k ∈ textLine? ls i, j ≤ k} j) ∧
      (cls = .blank ↔ textLine? ls i = none) ∧
      (cls = .comment ↔ ∃ k ∈ textLine? ls i, CommentAt ls k) ∧
      (cls = .commandLine ↔ ∃ k ∈ textLine? ls i, ¬ CommentAt ls k ∧ StartsAt ls Byte.tab k) ∧
      (cls = .other ↔ ∃ k ∈ textLine? ls i, ¬ CommentAt ls k ∧ ¬ StartsAt ls Byte.tab k) ∧
      (resolved.step (style, .classify i)).sink.records.toList = resolved.sink.records.toList ++
        said.filterMap resolved.sink.registry.diagnostic? ∧
      ∀ ms : List Line, (∀ j, i ≤ j → j ≤ last → ms[j]? = ls[j]?) →
        classify (ms.drop i) = classify (ls.drop i) := by
  intro resolved ls cls said
  have hlater : LaterAll (ofBytes path nestLevel bytes) ls :=
    (laterAll_run (load r path nestLevel bytes) todo).trans (LaterAll.of_joinAll _)
  have hplaced : Placed ls path := hlater.placed
  have hclosed : ∀ m ∈ ls.getLast?, m.isContinued = false :=
    EndsMarked.isContinued_joinAll
      ((laterAll_run _ todo).endsMarked (endsMarked_ofBytes path nestLevel bytes))
  have hclassify : classify (ls.drop i) =
      (runClass ls i, badSpaceFindings ls path i ++ commentFindings ls path i) :=
    (classify_drop hplaced hl).trans (if_neg hdata)
  have hcls : cls = runClass ls i := congrArg Prod.fst hclassify
  have hsaid : (badSpaceFindings ls path i ++ commentFindings ls path i).flatMap Finding.notices =
      said := by
    rw [List.flatMap_append, badSpaceFindings, commentFindings, List.flatMap_map, List.flatMap_map]
    rfl
  obtain ⟨last, hlast⟩ := exists_runEnd hclosed hl
  obtain ⟨hblank, hcomment, hcommand, hother⟩ := runClass_eq_iff ls i
  rw [← hcls] at hblank hcomment hcommand hother
  refine ⟨last, hlast, ?_, ?_, hblank, hcomment, hcommand, hother, ?_, ?_⟩
  · intro k
    rw [textLine?_eq_some_iff]
    simp only [runsTo_iff_le hlast, and_assoc]
  · intro j
    rw [badSpaceLine?_eq_some_iff]
    simp only [runsTo_iff_le hlast, and_assoc]
  · rw [← hsaid, ← Sink.records_addAll]
    exact congrArg (fun c => (resolved.sink.addFindings c.2).records.toList) hclassify
  · intro ms hms
    exact classify_congr hlast.1.1 hlast.1.2 hms

/-- White space, a vertical tab among it, that goes on over a line without any to an indented comment. -/
theorem Progress.step_classify_indented :
    let loaded := Progress.load .warnAll "Makefile" 0
      [0x20, 0x5c, 0x0a, 0x0b, 0x5c, 0x0a, 0x5c, 0x0a, 0x09, 0x23, 0x5c, 0x0a, 0x79, 0x0a, 0x7a, 0x0a]
    let resolved := (loaded.run []).step ({}, .continuations)
    let first : Line := ⟨[0x20], "Makefile", 1, false, 0, .space⟩
    resolved.lines[0]? = some first ∧ first.data ≠ [] ∧
      (classify (resolved.lines.drop 0)).1 = .comment ∧
      (resolved.step ({}, .classify 0)).sink.records.toList = resolved.sink.records.toList ++
        [⟨.leadingBadSpace, .warn, some .undefined, some ⟨"Makefile", 2, none⟩,
            "line contains leading white space other than <space> and <tab>, which causes " ++
              "undefined behaviour"⟩,
          ⟨.illegalIndent, .warn, some .undefined, some ⟨"Makefile", 4, none⟩,
            "comment has leading white space, which is not legal"⟩,
          ⟨.illegalIndent, .info, none, none,
            "this implementation will recognise it as a comment line"⟩] := by
  intro loaded resolved first
  have hfirst : resolved.lines[0]? = some first := by decide
  have hdata : first.data ≠ [] := by decide
  obtain ⟨_, -, -, -, -, hcomment, -, -, hrecords, -⟩ :=
    Progress.step_classify .warnAll "Makefile" 0 _ [] {} hfirst hdata
  have hbad : badSpaceLine? resolved.lines 0 = some 1 := by decide
  have htext : textLine? resolved.lines 0 = some 3 := by decide
  refine ⟨hfirst, hdata, hcomment.mpr ⟨3, htext, by decide⟩, ?_⟩
  rw [hrecords, hbad, htext]
  rfl

end MakeLint
