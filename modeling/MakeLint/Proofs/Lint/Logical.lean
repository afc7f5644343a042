import MakeLint.Lint.Walk
import MakeLint.Proofs.Line.Resolved
import MakeLint.Proofs.Line.Run
import MakeLint.Proofs.Lint.Findings
/-!
# Logical lines

A survey takes joined lines one at a time and knows of each only whether it belongs to a logical line
that began before. So every line starts a logical line or belongs to the one that the line before it
belongs to, and what a survey counts and finds can be told index by index. A walk that steps over whole
runs comes to the same.
-/

namespace MakeLint

/-! ### Counts -/

namespace ClassCounts

/-- How many logical lines have been counted. -/
def sum (n : ClassCounts) : Nat :=
  n.empty + n.blank + n.comment + n.commandLine + n.other

def ofClasses (classes : List LineClass) : ClassCounts :=
  classes.foldr (fun cls n => n.record cls) {}

theorem sum_record (n : ClassCounts) (cls : LineClass) : (n.record cls).sum = n.sum + 1 := by
  cases cls <;> simp only [record, sum] <;> omega

theorem sum_ofClasses (classes : List LineClass) : (ofClasses classes).sum = classes.length := by
  induction classes with
  | nil => rfl
  | cons cls classes ih =>
    change ((ofClasses classes).record cls).sum = _
    rw [sum_record, ih, List.length_cons]

theorem blank_ofClasses (classes : List LineClass) :
    (ofClasses classes).blank = classes.count .blank := by
  induction classes with
  | nil => rfl
  | cons cls classes ih =>
    change ((ofClasses classes).record cls).blank = _
    rw [List.count_cons, ← ih]
    cases cls <;> rfl

theorem add_record (m n : ClassCounts) (cls : LineClass) :
    m.record cls + n = m + n.record cls := by
  cases cls <;> simp only [add_def, record, Nat.add_right_comm, Nat.add_assoc]

theorem add_zero (n : ClassCounts) : n + ({} : ClassCounts) = n := by
  simp [add_def]

end ClassCounts

namespace Lint

open Line

/-! ### Walks -/

variable {style : Style} {ls : List Line} {i k : Nat} {l : Line}

/-- A survey of a logical line that began before steps over its run. -/
theorem survey_true_drop (style : Style) (ls : List Line) (i : Nat) :
    survey style true (ls.drop i) =
      ((survey style false (ls.drop ((stepOver ls i).1 + 1))).1,
        (stepOver ls i).2 ++ (survey style false (ls.drop ((stepOver ls i).1 + 1))).2) := by
  fun_induction stepOver ls i with
  | case1 i hlt hcontinued last later hlater hidden ih =>
    rw [hlater] at ih
    rw [List.drop_eq_getElem_cons hlt, survey, hcontinued, ih]
    simp [hidden]
  | case2 i hlt hends =>
    rw [Bool.not_eq_true] at hends
    rw [List.drop_eq_getElem_cons hlt, survey, hends]
    simp
  | case3 i hle =>
    rw [List.drop_eq_nil_of_le (by omega), List.drop_eq_nil_of_le (by omega)]
    rfl

/-- A line that starts a logical line is classified, and then its run is stepped over. -/
theorem survey_false_cons (style : Style) (l : Line) (rest : List Line) :
    survey style false (l :: rest) =
      ((survey style true (l :: rest)).1.record (classify (l :: rest)).1,
        (classify (l :: rest)).2 ++
          (if (classify (l :: rest)).1 = .blank && style.onlyEmptyBlankLines then
            [l.finding .nonemptyBlank] else []) ++
          (survey style true (l :: rest)).2) := by
  simp [survey]

theorem walkFrom_eq (style : Style) (ls : List Line) (counts : ClassCounts) (i : Nat) :
    walkFrom style ls counts i =
      (counts + (survey style false (ls.drop i)).1, (survey style false (ls.drop i)).2) := by
  fun_induction walkFrom style ls counts i with
  | case1 counts i hlt cls found hclass blank run counts' later hlater ih =>
    obtain ⟨hcounts, rfl⟩ := Prod.mk.inj (hlater.symm.trans ih)
    have hdrop : ls.drop i = ls[i] :: ls.drop (i + 1) := List.drop_eq_getElem_cons hlt
    have hcons := survey_false_cons style ls[i] (ls.drop (i + 1))
    rw [← hdrop, survey_true_drop, hclass] at hcons
    rw [hcons, hcounts, ClassCounts.add_record]
    simp only [List.append_assoc]
    rfl
  | case2 counts i hle =>
    rw [List.drop_eq_nil_of_le (by omega), survey, ClassCounts.add_zero]

/-- Walking over whole runs comes to what a survey of line after line comes to. -/
theorem walk_eq (style : Style) (ls : List Line) : walk style ls = survey style false ls := by
  rw [walk, walkFrom_eq, List.drop_zero, ClassCounts.zero_add]

/-! ### Surveys by index -/

section

variable (ms : List Line)

/-- No line goes on in the line at the index. -/
def StartsRun (i : Nat) : Prop :=
  i = 0 ∨ ¬ ContinuedAt ms (i - 1)

instance (i : Nat) : Decidable (StartsRun ms i) :=
  inferInstanceAs (Decidable (i = 0 ∨ ¬ ContinuedAt ms (i - 1)))

/-- The line at the index holds a number sign. -/
def HashAt (i : Nat) : Prop :=
  ∃ l ∈ ms[i]?, Byte.hash ∈ l.data

instance (i : Nat) : Decidable (HashAt ms i) :=
  inferInstanceAs (Decidable (∃ l ∈ ms[i]?, Byte.hash ∈ l.data))

/-- The indices of the lines that start logical lines. -/
def starts : List Nat :=
  (List.range ms.length).filter (StartsRun ms ·)

/-- The class of the logical line that starts at the index. -/
def classAt (i : Nat) : LineClass :=
  (classify (ms.drop i)).1

/-- What a survey finds at the line at the index. -/
def surveyedAt (style : Style) (path : String) (i : Nat) : List Finding :=
  (if StartsRun ms i then
    (classify (ms.drop i)).2 ++
      (if classAt ms i = .blank && style.onlyEmptyBlankLines then
        [⟨.nonemptyBlank, { path := path, line := i + 1 }⟩] else [])
  else []) ++
  (if ContinuedAt ms i ∧ HashAt ms i then
    [⟨.continuedComment, { path := path, line := i + 1 }⟩] else [])

end

variable {ms : List Line}

theorem startsRun_succ_iff (hl : ms[i]? = some l) :
    StartsRun ms (i + 1) ↔ l.isContinued = false := by
  simp [StartsRun, continuedAt_iff hl]

/-- A survey from an index on, told line by line. -/
theorem survey_drop {path : String} (hplaced : Placed ms path) (style : Style) {rest : List Line}
    (hrest : ms.drop i = rest) :
    survey style (decide (¬ StartsRun ms i)) rest =
      (.ofClasses (((List.range' i rest.length).filter (StartsRun ms ·)).map (classAt ms)),
        (List.range' i rest.length).flatMap (surveyedAt ms style path)) := by
  induction rest generalizing i with
  | nil => rfl
  | cons l rest ih =>
    obtain ⟨hl, hnext⟩ := getElem?_of_drop hrest
    have hinside : decide (¬ StartsRun ms (i + 1)) = l.isContinued := by
      rw [Bool.eq_iff_iff, decide_eq_true_iff, startsRun_succ_iff hl, Bool.not_eq_false]
    have hrun := ih hnext
    rw [hinside] at hrun
    have hhidden : ContinuedAt ms i ∧ HashAt ms i ↔
        (l.isContinued && l.data.contains Byte.hash) = true := by
      simp [continuedAt_iff hl, HashAt, hl]
    rw [survey, hrun, List.length_cons, List.range'_succ, List.flatMap_cons, surveyedAt, classAt,
      hrest]
    simp only [Line.finding, hplaced i l hl, hhidden]
    by_cases hstarts : StartsRun ms i
    · simp [hstarts, classAt, hrest, ClassCounts.ofClasses]
    · simp [hstarts]

theorem survey_eq {path : String} (hplaced : Placed ms path) (style : Style) :
    survey style false ms =
      (.ofClasses ((starts ms).map (classAt ms)),
        (List.range ms.length).flatMap (surveyedAt ms style path)) := by
  have hall := survey_drop hplaced style (List.drop_zero (l := ms))
  rw [← List.range_eq_range'] at hall
  exact hall

/-! ### Findings by class -/

theorem flatMap_ite_singleton {p : Nat → Prop} [DecidablePred p] (g : Nat → Finding)
    (is : List Nat) :
    is.flatMap (fun i => if p i then [g i] else []) = (is.filter (p ·)).map g := by
  induction is with
  | nil => rfl
  | cons i is ih =>
    rw [List.flatMap_cons, ih]
    by_cases hi : p i <;> simp [hi]

theorem select_classify {cls : WarningClass} (h : cls ∉ classifyingClasses) (ls : List Line) :
    Finding.select (· = cls) (classify ls).2 = [] := by
  apply Finding.select_eq_nil
  intro f hf
  exact decide_eq_false ((mem_classify hf).cls_ne h)

/-- Comments that are continued are found at their own lines, in order. -/
theorem select_survey_commentContinuation {path : String} (hplaced : Placed ms path)
    (style : Style) :
    Finding.select (· = .commentContinuation) (survey style false ms).2 =
      ((List.range ms.length).filter fun i => ContinuedAt ms i ∧ HashAt ms i).map fun i =>
        ⟨.continuedComment, { path := path, line := i + 1 }⟩ := by
  have hline (i : Nat) : Finding.select (· = .commentContinuation) (surveyedAt ms style path i) =
      if ContinuedAt ms i ∧ HashAt ms i then
        [⟨.continuedComment, { path := path, line := i + 1 }⟩] else [] := by
    have hstart : Finding.select (· = .commentContinuation)
        (if classAt ms i = .blank && style.onlyEmptyBlankLines then
          [⟨.nonemptyBlank, { path := path, line := i + 1 }⟩] else []) = [] := by
      split <;> rfl
    rw [surveyedAt, Finding.select_append, apply_ite (Finding.select _), Finding.select_append,
      select_classify (by decide), hstart]
    split_ifs <;> rfl
  rw [survey_eq hplaced, ← flatMap_ite_singleton, Finding.select, List.filter_flatMap]
  exact congrArg (List.flatMap · _) (funext hline)

/-- White space is found at the lines that start blank logical lines, in order. -/
theorem select_survey_nonemptyBlank {path : String} (hplaced : Placed ms path) (style : Style) :
    Finding.select (· = .nonemptyBlank) (survey style false ms).2 =
      if style.onlyEmptyBlankLines then
        ((starts ms).filter (classAt ms · = .blank)).map fun i =>
          ⟨.nonemptyBlank, { path := path, line := i + 1 }⟩
      else [] := by
  have hline (i : Nat) : Finding.select (· = .nonemptyBlank) (surveyedAt ms style path i) =
      if StartsRun ms i ∧ classAt ms i = .blank ∧ style.onlyEmptyBlankLines = true then
        [⟨.nonemptyBlank, { path := path, line := i + 1 }⟩] else [] := by
    have hhidden : Finding.select (· = .nonemptyBlank)
        (if ContinuedAt ms i ∧ HashAt ms i then
          [⟨.continuedComment, { path := path, line := i + 1 }⟩] else []) = [] := by
      split <;> rfl
    rw [surveyedAt, Finding.select_append, apply_ite (Finding.select _), Finding.select_append,
      select_classify (by decide), hhidden]
    by_cases hstarts : StartsRun ms i <;> by_cases hblank : classAt ms i = .blank <;>
      cases style.onlyEmptyBlankLines <;> simp [hstarts, hblank, Finding.select, Defect.cls]
  have hall : Finding.select (· = .nonemptyBlank) (survey style false ms).2 =
      (List.range ms.length).flatMap fun i =>
        if StartsRun ms i ∧ classAt ms i = .blank ∧ style.onlyEmptyBlankLines = true then
          [⟨.nonemptyBlank, { path := path, line := i + 1 }⟩] else [] := by
    rw [survey_eq hplaced, Finding.select, List.filter_flatMap]
    exact congrArg (List.flatMap · _) (funext hline)
  rw [hall, flatMap_ite_singleton fun i => ⟨.nonemptyBlank, { path := path, line := i + 1 }⟩]
  cases style.onlyEmptyBlankLines with
  | true => simp [starts, List.filter_filter, Bool.and_comm]
  | false => simp

/-- What is found in a source before its logical lines are read is of other classes. -/
theorem source_eq_append_survey (name : String) (style : Style) (bytes : Bytes) :
    ∃ earlier : List Finding, (∀ f ∈ earlier, f.defect.cls ∉ readingClasses) ∧
      (source name style bytes).2 =
        earlier ++ (survey style false (finalLines (ofBytes name 0 bytes))).2 := by
  have hline : ∀ cls ∈ [WarningClass.encoding, .longLine], cls ∉ readingClasses := by decide
  have hcontinuation : ∀ cls ∈ continuationClasses, cls ∉ readingClasses := by decide
  refine ⟨framingFindings name bytes (ofBytes name 0 bytes) ++
    (lineFindings style (ofBytes name 0 bytes) ++
      continuationFindings ((ofBytes name 0 bytes).map Line.repair)), ?_, ?_⟩
  · intro f hf
    rcases List.mem_append.mp hf with hf | hf
    · rw [cls_framingFindings hf]
      decide
    · rcases List.mem_append.mp hf with hf | hf
      · obtain ⟨_, -, -, hcls⟩ := mem_lineFindings hf
        exact hline _ hcls
      · rcases mem_continuationFindings hf with ⟨_, -, -, hcls⟩ | hspans
        · exact hcontinuation _ hcls
        · rw [hspans.cls_eq]
          decide
  · rw [List.append_assoc]
    rfl

/-- What a survey reads from logical lines is among what is found in a source by its class. -/
theorem select_source {cls : WarningClass} (h : cls ∈ readingClasses) (name : String) (style : Style)
    (bytes : Bytes) :
    Finding.select (· = cls) (source name style bytes).2 =
      Finding.select (· = cls) (survey style false (finalLines (ofBytes name 0 bytes))).2 := by
  obtain ⟨earlier, hearlier, hsource⟩ := source_eq_append_survey name style bytes
  have hnone : Finding.select (· = cls) earlier = [] := by
    apply Finding.select_eq_nil
    intro f hf
    apply decide_eq_false
    rintro rfl
    exact hearlier f hf h
  rw [hsource, Finding.select_append, hnone, List.nil_append]

/-! ### Every line in one logical line -/

/-- As many logical lines start as end, since the last line ends one. -/
theorem length_starts (hclosed : ∀ m ∈ ms.getLast?, m.isContinued = false) :
    (starts ms).length = (List.range ms.length).countP fun i => ¬ ContinuedAt ms i := by
  rw [starts, ← List.countP_eq_length_filter]
  rcases List.eq_nil_or_concat' ms with rfl | ⟨init, last, rfl⟩
  · rfl
  · have hlast : ¬ ContinuedAt (init ++ [last]) init.length := by
      have hget : (init ++ [last])[init.length]? = some last := by simp
      rw [continuedAt_iff hget, hclosed last (by simp)]
      exact Bool.false_ne_true
    rw [List.length_append, List.length_singleton]
    -- the starts but for the first are the ends but for the last, one line on
    conv_lhs => rw [List.range_succ_eq_map]
    conv_rhs => rw [List.range_succ]
    simp [List.countP_map, List.countP_append, StartsRun, hlast, Function.comp_def]

/-- Every line belongs to the run of one line that starts a logical line. -/
theorem existsUnique_startsRun (ms : List Line) (k : Nat) :
    ∃! i, StartsRun ms i ∧ RunsTo ms i k := by
  apply existsUnique_of_exists_of_unique
  · induction k with
    | zero => exact ⟨0, .inl rfl, runsTo_iff.mpr (.inl rfl)⟩
    | succ k ih =>
      by_cases hcontinued : ContinuedAt ms k
      · obtain ⟨i, hstarts, hruns⟩ := ih
        have hnext : RunsTo ms k (k + 1) :=
          runsTo_iff.mpr (.inr ⟨hcontinued, runsTo_iff.mpr (.inl rfl)⟩)
        exact ⟨i, hstarts, hruns.trans hnext⟩
      · exact ⟨k + 1, .inr hcontinued, runsTo_iff.mpr (.inl rfl)⟩
  · have hle {i j : Nat} (hi : RunsTo ms i k) (hstarts : StartsRun ms j) (hj : RunsTo ms j k) :
        j ≤ i := by
      have hjk := hj.1
      by_contra hlt
      rcases hstarts with rfl | hends
      · omega
      · exact hends (hi.2 (j - 1) (by omega) (by omega))
    intro i j hi hj
    exact Nat.le_antisymm (hle hj.2 hi.1 hi.2) (hle hi.2 hj.1 hj.2)

/-! ### Lines as they were loaded -/

theorem laterAll_finalLines (ls : List Line) : LaterAll ls (finalLines ls) :=
  (LaterAll.of_map Later.of_repair ls).trans (LaterAll.of_joinAll _)

theorem length_finalLines (ls : List Line) : (finalLines ls).length = ls.length :=
  (laterAll_finalLines ls).length

theorem getElem?_finalLines (ls : List Line) (i : Nat) :
    (finalLines ls)[i]? = ls[i]?.map fun l => l.repair.join.settle := by
  rw [finalLines, joinAll, List.getElem?_map, List.getElem?_map, Option.map_map]
  rfl

theorem placed_finalLines (name : String) (bytes : Bytes) :
    Placed (finalLines (ofBytes name 0 bytes)) name :=
  (laterAll_finalLines _).placed

theorem onlyLastMarked_ofBytes (name : String) (nestLevel : Nat) (bytes : Bytes) :
    OnlyLastMarked (ofBytes name nestLevel bytes) :=
  fun _ _ hl => ((LaterAll.refl _).place hl).2.2.2.1

/-- Neither the repair nor the loss of a backslash makes or takes a number sign. -/
theorem hashAt_finalLines_iff : HashAt (finalLines ls) i ↔ HashAt ls i := by
  rw [HashAt, HashAt, getElem?_finalLines]
  cases ls[i]? with
  | none => simp
  | some l =>
    have hdata : l.repair.join.settle.data = (Utf8.repair l.data).dropBackslash := by
      rw [data_settle, data_join]
      rfl
    simp [hdata, Bytes.hash_mem_dropBackslash,
      Utf8.mem_repair_iff (show Byte.hash < 0x80 by decide)]

section

variable (h : OnlyLastMarked ls)
include h

/-- A line goes on in the next one if it was loaded with a backslash and another after it. -/
theorem continuedAt_finalLines_iff :
    ContinuedAt (finalLines ls) i ↔ i + 1 < ls.length ∧ Continues ls i := by
  rw [ContinuedAt, Continues, getElem?_finalLines]
  cases hl : ls[i]? with
  | none => simp
  | some l =>
    have hlt : i < ls.length := (List.getElem?_eq_some_iff.mp hl).1
    have hlast : l.eof = false ↔ i + 1 < ls.length := by
      rw [← Bool.not_eq_true, h i l hl]
      omega
    have heof : l.repair.join.eof = l.eof := eof_join l.repair
    simp [isContinued_settle, isContinued_join, ends_repair, heof, hlast, and_comm]

theorem startsRun_finalLines_iff (hi : i < ls.length) :
    StartsRun (finalLines ls) i ↔ ¬ Line.Joined ls i := by
  rw [StartsRun, continuedAt_finalLines_iff h, Line.Joined]
  rcases Nat.eq_zero_or_pos i with rfl | hpos
  · simp
  · have hbefore : i - 1 + 1 < ls.length := by omega
    simp [hpos, hbefore, hpos.ne']

theorem runsTo_finalLines_iff (hk : k < ls.length) :
    RunsTo (finalLines ls) i k ↔ i ≤ k ∧ ∀ j < k, i ≤ j → Continues ls j := by
  refine and_congr_right fun _ => forall₂_congr fun j hj => imp_congr_right fun _ => ?_
  rw [continuedAt_finalLines_iff h]
  exact and_iff_right (by omega)

theorem isContinued_getLast?_finalLines :
    ∀ m ∈ (finalLines ls).getLast?, m.isContinued = false := by
  intro m hm
  rw [List.getLast?_eq_getElem?, length_finalLines] at hm
  rw [Bool.eq_false_iff, Ne, ← continuedAt_iff hm, continuedAt_finalLines_iff h]
  omega

/-- Every loaded line belongs to one that starts a logical line. -/
theorem existsUnique_start (hk : k < ls.length) :
    ∃! i, ¬ Line.Joined ls i ∧ i ≤ k ∧ ∀ j < k, i ≤ j → Continues ls j := by
  obtain ⟨i, ⟨hi, hruns⟩, hunique⟩ := existsUnique_startsRun (finalLines ls) k
  have hiff {j : Nat} : StartsRun (finalLines ls) j ∧ RunsTo (finalLines ls) j k ↔
      ¬ Line.Joined ls j ∧ j ≤ k ∧ ∀ m < k, j ≤ m → Continues ls m := by
    rw [runsTo_finalLines_iff h hk]
    exact and_congr_left fun hle => startsRun_finalLines_iff h (by omega)
  exact ⟨i, hiff.mp ⟨hi, hruns⟩, fun j hj => hunique j (hiff.mpr hj)⟩

/-- There are as many logical lines as loaded lines that end one. -/
theorem length_starts_finalLines :
    (starts (finalLines ls)).length =
      (List.range ls.length).countP fun i => i + 1 = ls.length ∨ ¬ Continues ls i := by
  rw [length_starts (isContinued_getLast?_finalLines h), length_finalLines]
  apply List.countP_congr
  intro i hi
  have hlt : i < ls.length := List.mem_range.mp hi
  rw [decide_eq_true_iff, decide_eq_true_iff, continuedAt_finalLines_iff h, not_and_or]
  exact or_congr_left (by omega)

/-- The logical lines that pass a test, by the loaded lines that start them. -/
theorem filter_starts_finalLines (p : Nat → Prop) [DecidablePred p] :
    (starts (finalLines ls)).filter (p ·) =
      (List.range ls.length).filter fun i => ¬ Line.Joined ls i ∧ p i := by
  rw [starts, List.filter_filter, length_finalLines]
  apply List.filter_congr
  intro i hi
  rw [Bool.and_comm, ← Bool.decide_and, decide_eq_decide,
    startsRun_finalLines_iff h (List.mem_range.mp hi)]

/-- The lines on which a comment is continued, by the lines as they were loaded. -/
theorem filter_hidden_finalLines :
    ((List.range ls.length).filter fun i =>
        ContinuedAt (finalLines ls) i ∧ HashAt (finalLines ls) i) =
      (List.range ls.length).filter fun i =>
        i + 1 < ls.length ∧ Continues ls i ∧ HashAt ls i := by
  apply List.filter_congr
  intro i _
  rw [decide_eq_decide, continuedAt_finalLines_iff h, hashAt_finalLines_iff, and_assoc]

end

end Lint

end MakeLint
