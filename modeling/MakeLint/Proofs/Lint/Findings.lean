import MakeLint.Lint
import MakeLint.Proofs.Line.Continuation
/-!
# Where findings come from

Every check looks for a few defects of its own and points at the line that it has before it. Only text
that is joined without white space is found between two lines: the finding spans from the line on which
the joined text leaves off to the one on which it goes on, and every line in between holds a backslash
and nothing else.
-/

namespace MakeLint

namespace Finding

/-- Points at one of the lines, for a defect of one of the classes. -/
def At (ls : List Line) (classes : List WarningClass) (f : Finding) : Prop :=
  ∃ l ∈ ls, f.location = l.location ∧ f.defect.cls ∈ classes

/-- Points from a line that ends in a backslash to a later one, over lines of only a backslash. -/
def Spans (ls : List Line) (f : Finding) : Prop :=
  ∃ init first between last rest, ls = init ++ first :: (between ++ last :: rest) ∧
    f.defect.cls = .spacelessContinuation ∧
    f.location = { first.location with endLine := some last.number } ∧
    Bytes.EndsInBackslash first.data ∧ ∀ l ∈ between, l.data = [Byte.backslash]

variable {ls ms : List Line} {classes : List WarningClass} {f : Finding}

theorem At.mono (h : f.At ls classes) (hsub : ls ⊆ ms) : f.At ms classes := by
  obtain ⟨l, hl, hlocation, hcls⟩ := h
  exact ⟨l, hsub hl, hlocation, hcls⟩

theorem At.cons {l : Line} (h : f.At ls classes) : f.At (l :: ls) classes :=
  h.mono (List.subset_cons_self l ls)

theorem At.cls_ne {cls : WarningClass} (h : f.At ls classes) (hcls : cls ∉ classes) :
    f.defect.cls ≠ cls := by
  obtain ⟨_, _, _, hmem⟩ := h
  exact ne_of_mem_of_not_mem hmem hcls

theorem Spans.cls_eq (h : f.Spans ls) : f.defect.cls = .spacelessContinuation := by
  obtain ⟨_, _, _, _, _, _, hcls, _⟩ := h
  exact hcls

theorem Spans.cls_ne {cls : WarningClass} (h : f.Spans ls) (hcls : cls ≠ .spacelessContinuation) :
    f.defect.cls ≠ cls := by
  rw [h.cls_eq]
  exact hcls.symm

/-- The lines of a span by their indices. -/
theorem Spans.exists_index (h : f.Spans ls) :
    ∃ (i n : Nat) (first last : Line),
      f.location = { first.location with endLine := some last.number } ∧
        ls[i]? = some first ∧ Bytes.EndsInBackslash first.data ∧
        (∀ j < n, ∃ l, ls[i + (j + 1)]? = some l ∧ l.data = [Byte.backslash]) ∧
        ls[i + (n + 1)]? = some last := by
  obtain ⟨init, first, between, last, rest, rfl, -, hlocation, hends, hbetween⟩ := h
  have hget (j : Nat) : (init ++ first :: (between ++ last :: rest))[init.length + j]? =
      (first :: (between ++ last :: rest))[j]? := by
    rw [List.getElem?_append_right (Nat.le_add_right _ _), Nat.add_sub_cancel_left]
  refine ⟨init.length, between.length, first, last, hlocation, hget 0, hends, ?_, ?_⟩
  · intro j hj
    refine ⟨between[j], ?_, hbetween _ (List.getElem_mem hj)⟩
    rw [hget, List.getElem?_cons_succ, List.getElem?_append_left hj, List.getElem?_eq_getElem hj]
  · rw [hget, List.getElem?_cons_succ, List.getElem?_append_right (Nat.le_refl _), Nat.sub_self,
      List.getElem?_cons_zero]

theorem At.widen {more : List WarningClass} (h : f.At ls classes) (hsub : classes ⊆ more) :
    f.At ls more := by
  obtain ⟨l, hl, hlocation, hcls⟩ := h
  exact ⟨l, hl, hlocation, hsub hcls⟩

theorem at_head {l : Line} {d : Defect} (h : d.cls ∈ classes) : (l.finding d).At (l :: ls) classes :=
  ⟨l, List.mem_cons_self, rfl, h⟩

/-- Where the lines are changed in place, a finding points where it did. -/
theorem At.of_map {change : Line → Line} (hchange : ∀ l, (change l).location = l.location)
    (h : f.At (ls.map change) classes) : f.At ls classes := by
  obtain ⟨m, hm, hlocation, hcls⟩ := h
  obtain ⟨l, hl, rfl⟩ := List.mem_map.mp hm
  exact ⟨l, hl, hlocation.trans (hchange l), hcls⟩

end Finding

namespace Line

open Bytes

variable {l : Line} {ls : List Line} {f : Finding}

/-! ### Single lines -/

theorem eq_of_mem_ite {p : Prop} [Decidable p] {d : Defect}
    (h : f ∈ if p then [l.finding d] else []) : f = l.finding d := by
  split at h
  · exact List.mem_singleton.mp h
  · cases h

theorem location_repair (l : Line) : l.repair.location = l.location :=
  rfl

theorem mem_encodingFindings (h : f ∈ l.encodingFindings) : f = l.finding .invalidEncoding :=
  List.eq_of_mem_replicate h

theorem mem_widthFindings {style : Style} (h : f ∈ l.widthFindings style) :
    ∃ columns limit tipped, f = l.finding (.wideLine columns limit tipped) := by
  unfold widthFindings at h
  split at h
  · cases h
  · dsimp only at h
    split at h
    · exact ⟨_, _, _, List.mem_singleton.mp h⟩
    · cases h

/-! ### Framing -/

theorem mem_framingFindings {path : String} {bytes : Bytes} (h : f ∈ framingFindings path bytes ls) :
    (∃ n ∈ nulLines 1 bytes, f = ⟨.nulByte, { path := path, line := n }⟩) ∨
      (lacksNewline bytes = true ∧ f = ⟨.missingNewline, { path := path, line := ls.length }⟩) ∨
      ∃ l ∈ ls, f = l.finding .overlongLine := by
  rcases List.mem_append.mp h with h | h
  · rcases List.mem_append.mp h with h | h
    · obtain ⟨n, hn, rfl⟩ := List.mem_map.mp h
      exact .inl ⟨n, hn, rfl⟩
    · split at h
      · next hlacks => exact .inr (.inl ⟨hlacks, List.mem_singleton.mp h⟩)
      · cases h
  · obtain ⟨l, hl, rfl⟩ := List.mem_map.mp h
    exact .inr (.inr ⟨l, (List.mem_filter.mp hl).1, rfl⟩)

theorem cls_framingFindings {path : String} {bytes : Bytes}
    (h : f ∈ framingFindings path bytes ls) : f.defect.cls = .text := by
  rcases mem_framingFindings h with ⟨_, _, rfl⟩ | ⟨_, rfl⟩ | ⟨_, _, rfl⟩ <;> rfl

/-! ### Continuations -/

theorem location_join (l : Line) : l.join.location = l.location := by
  unfold join
  split <;> rfl

theorem finding_join (l : Line) (d : Defect) : l.join.finding d = l.finding d :=
  congrArg (Finding.mk d) (location_join l)

theorem number_join (l : Line) : l.join.number = l.number :=
  congrArg Location.line (location_join l)

theorem location_settle (l : Line) : l.settle.location = l.location := by
  unfold settle
  split <;> rfl

/-- The classes of what is found at a joined line itself. -/
def continuationClasses : List WarningClass :=
  [.continuationOfBlank, .continuationToBlank, .eofLineContinuation, .unindentedContinuation]

theorem mem_continuationFindingsAt {before : Option Anchor}
    (h : f ∈ continuationFindingsAt before l) :
    f.location = l.location ∧ f.defect.cls ∈ continuationClasses ∨
      ∃ anchor ∈ before, f = ⟨.spacelessContinuation anchor.adjacent,
        { anchor.line.location with endLine := some l.number }⟩ := by
  have hhere {d : Defect} (hd : d.cls ∈ continuationClasses) (hf : f = l.finding d) :
      f.location = l.location ∧ f.defect.cls ∈ continuationClasses := by
    subst hf
    exact ⟨rfl, hd⟩
  unfold continuationFindingsAt at h
  rcases List.mem_append.mp h with h | h
  · left
    rcases List.mem_append.mp h with h | h
    · rcases List.mem_append.mp h with h | h
      · exact hhere (by decide) (eq_of_mem_ite h)
      · exact hhere (by decide) (eq_of_mem_ite h)
    · exact hhere (by simp [Defect.cls, continuationClasses]) (eq_of_mem_ite h)
  · cases before with
    | none => cases h
    | some anchor =>
      dsimp only at h
      split at h
      · rcases List.mem_append.mp h with h | h
        · right
          split at h
          · exact ⟨anchor, rfl, List.mem_singleton.mp h⟩
          · cases h
        · left
          exact hhere (by decide) (List.mem_singleton.mp h)
      · cases h

/-- The anchor stands on a line that ends in a backslash, and since then only backslashes were seen. -/
def Anchor.Reaches (seen : List Line) (a : Anchor) : Prop :=
  ∃ init first between, seen = init ++ first :: between ∧ a.line.location = first.location ∧
    EndsInBackslash first.data ∧ ∀ l ∈ between, l.data = [Byte.backslash]

theorem Anchor.reaches_self {seen : List Line} (h : EndsInBackslash l.data) (adjacent : Bool) :
    Anchor.Reaches (seen ++ [l]) ⟨l.join, adjacent⟩ :=
  ⟨seen, l, [], rfl, location_join l, h, by simp⟩

theorem Anchor.Reaches.extend {seen : List Line} {a : Anchor} (h : a.Reaches seen)
    (hl : l.data = [Byte.backslash]) (adjacent : Bool) :
    Anchor.Reaches (seen ++ [l]) ⟨a.line, adjacent⟩ := by
  obtain ⟨init, first, between, rfl, hlocation, hends, hbetween⟩ := h
  refine ⟨init, first, between ++ [l], by simp, hlocation, hends, ?_⟩
  intro m hm
  rcases List.mem_append.mp hm with hm | hm
  · exact hbetween m hm
  · rw [List.mem_singleton.mp hm, hl]

theorem anchorAfter_reaches {seen : List Line} {before : Option Anchor}
    (h : ∀ a ∈ before, a.Reaches seen) (l : Line) :
    ∀ a ∈ anchorAfter before l.join, a.Reaches (seen ++ [l]) := by
  intro a ha
  unfold anchorAfter at ha
  split at ha
  · next hcontinued =>
    have hends : EndsInBackslash l.data := by
      rw [isContinued_settle, isContinued_join, Bool.and_eq_true, decide_eq_true_iff] at hcontinued
      exact hcontinued.1
    cases before with
    | none =>
      obtain rfl := Option.some.inj ha
      exact Anchor.reaches_self hends true
    | some anchor =>
      dsimp only at ha
      split at ha
      · next hempty =>
        obtain rfl := Option.some.inj ha
        have hdata : l.data = [Byte.backslash] := by
          rw [List.isEmpty_iff, data_join] at hempty
          rw [hends.eq_append, hempty, List.nil_append]
        exact (h anchor rfl).extend hdata false
      · obtain rfl := Option.some.inj ha
        exact Anchor.reaches_self hends true
  · cases ha

theorem mem_continuationFindingsFrom {seen rest : List Line} {before : Option Anchor}
    (hbefore : ∀ a ∈ before, a.Reaches seen) (h : f ∈ continuationFindingsFrom before rest) :
    f.At (seen ++ rest) continuationClasses ∨ f.Spans (seen ++ rest) := by
  induction rest generalizing seen before with
  | nil => cases h
  | cons l rest ih =>
    rcases List.mem_append.mp h with h | h
    · rcases mem_continuationFindingsAt h with ⟨hlocation, hcls⟩ | ⟨anchor, hanchor, rfl⟩
      · left
        exact ⟨l, by simp, hlocation.trans (location_join l), hcls⟩
      · right
        obtain ⟨init, first, between, rfl, hfirst, hends, hbetween⟩ := hbefore anchor hanchor
        refine ⟨init, first, between, l, rest, by simp, rfl, ?_, hends, hbetween⟩
        rw [hfirst, number_join]
    · have hrest := ih (anchorAfter_reaches hbefore l) h
      rwa [List.append_assoc, List.singleton_append] at hrest

theorem mem_continuationFindings (h : f ∈ continuationFindings ls) :
    f.At ls continuationClasses ∨ f.Spans ls := by
  have hnone : ∀ a ∈ (none : Option Anchor), a.Reaches [] := by simp
  exact mem_continuationFindingsFrom hnone h

/-! ### Classes -/

/-- The classes of what is found where the class of a line is determined. -/
def classifyingClasses : List WarningClass :=
  [.leadingBadSpace, .illegalIndent]

/-- The classes of what is found where logical lines are read. -/
def readingClasses : List WarningClass :=
  classifyingClasses ++ [.nonemptyBlank, .commentContinuation]

theorem mem_classifyRun {warned : Bool} (h : f ∈ (classifyRun warned ls).2) :
    f.At ls classifyingClasses := by
  induction ls generalizing warned with
  | nil => cases h
  | cons l ls ih =>
    have hbad (hf : f ∈ if !warned && l.hasBadSpace then [l.finding .leadingBadSpace] else []) :
        f.At (l :: ls) classifyingClasses :=
      eq_of_mem_ite hf ▸ Finding.at_head (by decide)
    rw [classifyRun] at h
    cases hfirst : l.firstText? with
    | none =>
      rw [hfirst] at h
      dsimp only at h
      split at h
      · rcases List.mem_append.mp h with h | h
        · exact hbad h
        · exact (ih h).cons
      · exact hbad h
    | some first =>
      rw [hfirst] at h
      rcases List.mem_append.mp h with h | h
      · exact hbad h
      · rw [eq_of_mem_ite h]
        exact Finding.at_head (by decide)

theorem mem_classify (h : f ∈ (classify ls).2) : f.At ls classifyingClasses := by
  cases ls with
  | nil => cases h
  | cons l ls =>
    unfold classify at h
    dsimp only at h
    split at h
    · cases h
    · exact mem_classifyRun h

theorem mem_survey {style : Style} {inside : Bool} (h : f ∈ (Lint.survey style inside ls).2) :
    f.At ls readingClasses := by
  induction ls generalizing inside with
  | nil => cases h
  | cons l ls ih =>
    have hif {p : Prop} [Decidable p] {d : Defect} (hd : d.cls ∈ readingClasses)
        (hf : f ∈ if p then [l.finding d] else []) : f.At (l :: ls) readingClasses :=
      eq_of_mem_ite hf ▸ Finding.at_head hd
    have hrest (hf : f ∈ (if l.isContinued && l.data.contains Byte.hash then
          [l.finding .continuedComment] else []) ++ (Lint.survey style l.isContinued ls).2) :
        f.At (l :: ls) readingClasses := by
      rcases List.mem_append.mp hf with hf | hf
      · exact hif (by decide) hf
      · exact (ih hf).cons
    cases inside with
    | true => exact hrest h
    | false =>
      simp only [Lint.survey, Bool.false_eq_true, if_false, List.append_assoc] at h
      rcases List.mem_append.mp h with h | h
      · exact (mem_classify h).widen (List.subset_append_left _ _)
      · rcases List.mem_append.mp h with h | h
        · exact hif (by decide) h
        · exact hrest h

end Line

/-! ### All checks -/

namespace Lint

open Line

variable {style : Style} {ls : List Line} {f : Finding}

/-- The classes of what is found at single lines. -/
def classes : List WarningClass :=
  [.encoding, .longLine] ++ continuationClasses ++ readingClasses

theorem mem_lineFindings (h : f ∈ lineFindings style ls) : f.At ls [.encoding, .longLine] := by
  obtain ⟨l, hl, hf⟩ := List.mem_flatMap.mp h
  rcases List.mem_append.mp hf with hf | hf
  · rw [mem_encodingFindings hf]
    exact ⟨l, hl, rfl, by simp [Line.finding, Defect.cls]⟩
  · obtain ⟨columns, limit, tipped, rfl⟩ := mem_widthFindings hf
    exact ⟨l, hl, rfl, by simp [Line.finding, Defect.cls]⟩

theorem mem_lines (h : f ∈ (lines style ls).2) :
    f.At ls classes ∨ f.Spans (ls.map Line.repair) := by
  have hencoding : [.encoding, .longLine] ⊆ classes := by decide
  have hcontinuation : continuationClasses ⊆ classes := by decide
  have hreading : readingClasses ⊆ classes := by decide
  rcases List.mem_append.mp h with h | h
  · rcases List.mem_append.mp h with h | h
    · exact .inl ((mem_lineFindings h).widen hencoding)
    · rcases mem_continuationFindings h with h | h
      · exact .inl ((h.of_map location_repair).widen hcontinuation)
      · exact .inr h
  · have hplace (l : Line) : l.join.settle.location = l.location :=
      (location_settle l.join).trans (location_join l)
    exact .inl ((((mem_survey h).of_map hplace).of_map location_repair).widen hreading)

end Lint

end MakeLint
