import MakeLint.Text.Blank
import Mathlib.Data.List.DropRight
/-!
# Trimmed text

What trimming and splitting leave, said without the order in which the ends are cut. A text has one
core: white space stands around it and none at its own ends, so the core is what is left when both
ends have been trimmed. A text that holds a character splits in one way into what has none of it and
what follows its first occurrence.
-/

namespace MakeLint.Text

variable {text core : List Char}

/-- The text with white space before and after it, or without any. -/
def Padded (text core : List Char) : Prop :=
  ∃ before after, text = before ++ core ++ after ∧
    (∀ c ∈ before, isWhite c = true) ∧ ∀ c ∈ after, isWhite c = true

/-- The text without the white space around it. -/
structure Trimmed (text core : List Char) : Prop where
  padded : Padded text core
  head : ∀ c ∈ core.head?, isWhite c = false
  last : ∀ c ∈ core.getLast?, isWhite c = false

/-! ### One end -/

theorem trimStart_append {before rest : List Char} (hbefore : ∀ c ∈ before, isWhite c = true)
    (hrest : ∀ c ∈ rest.head?, isWhite c = false) : trimStart (before ++ rest) = rest := by
  rw [trimStart, List.dropWhile_append_of_pos hbefore]
  cases rest with
  | nil => rfl
  | cons c rest =>
    have hc : isWhite c = false := hrest c rfl
    rw [List.dropWhile_cons_of_neg (by simp [hc])]

theorem trimEnd_eq_reverse (text : List Char) : trimEnd text = (trimStart text.reverse).reverse :=
  rfl

theorem trimEnd_append {rest after : List Char} (hafter : ∀ c ∈ after, isWhite c = true)
    (hrest : ∀ c ∈ rest.getLast?, isWhite c = false) : trimEnd (rest ++ after) = rest := by
  rw [trimEnd_eq_reverse, List.reverse_append, trimStart_append, List.reverse_reverse]
  · intro c hc
    exact hafter c (List.mem_reverse.mp hc)
  · rwa [List.head?_reverse]

theorem trim_eq_nil (h : ∀ c ∈ text, isWhite c = true) : trim text = [] := by
  have hstart : trimStart text = [] := List.dropWhile_eq_nil_iff.mpr h
  rw [trim, hstart]
  rfl

/-! ### Both ends -/

theorem Trimmed.trim_eq (h : Trimmed text core) : trim text = core := by
  obtain ⟨⟨before, after, rfl, hbefore, hafter⟩, hhead, hlast⟩ := h
  cases core with
  | nil =>
    apply trim_eq_nil
    intro c hc
    rw [List.append_nil] at hc
    exact (List.mem_append.mp hc).elim (hbefore c) (hafter c)
  | cons c core =>
    have hstart : trimStart (before ++ (c :: core ++ after)) = c :: core ++ after :=
      trimStart_append hbefore hhead
    rw [trim, List.append_assoc, hstart, trimEnd_append hafter hlast]

theorem trimmed_trim (text : List Char) : Trimmed text (trim text) := by
  have hstart : text.takeWhile isWhite ++ trimStart text = text := List.takeWhile_append_dropWhile
  have hend : trim text ++ (trimStart text).rtakeWhile isWhite = trimStart text :=
    List.rdropWhile_append_rtakeWhile
  refine ⟨⟨text.takeWhile isWhite, (trimStart text).rtakeWhile isWhite, ?_, ?_, ?_⟩, ?_, ?_⟩
  · rw [List.append_assoc, hend, hstart]
  · exact fun c hc => List.mem_takeWhile_imp hc
  · exact fun c hc => List.mem_rtakeWhile_imp hc
  · intro c hc
    have hfirst : (trimStart text).head? = some c := by
      rw [← hend, List.head?_append, hc]
      rfl
    have hnot := List.head?_dropWhile_not isWhite text
    rw [← trimStart, hfirst] at hnot
    exact hnot
  · intro c hc
    obtain ⟨hne, rfl⟩ := List.mem_getLast?_eq_getLast hc
    exact Bool.eq_false_iff.mpr (List.rdropWhile_last_not isWhite (trimStart text) hne)

/-- A core without white space is found whatever white space is put around it. -/
theorem Padded.trimmed (h : Padded text core) (hcore : ∀ c ∈ core, isWhite c = false) :
    Trimmed text core :=
  ⟨h, fun c hc => hcore c (List.mem_of_mem_head? hc), fun c hc =>
    hcore c (List.mem_of_mem_getLast? hc)⟩

theorem Padded.mem_iff (h : Padded text core) {c : Char} (hc : isWhite c = false) :
    c ∈ text ↔ c ∈ core := by
  obtain ⟨before, after, rfl, hbefore, hafter⟩ := h
  have hnot {side : List Char} (hside : ∀ c ∈ side, isWhite c = true) : c ∉ side := by
    intro hmem
    rw [hside c hmem] at hc
    cases hc
  rw [List.mem_append, List.mem_append, or_iff_right (hnot hbefore), or_iff_left (hnot hafter)]

/-! ### The first occurrence -/

theorem splitFirst?_eq_none_iff {sep : Char} : splitFirst? sep text = none ↔ sep ∉ text := by
  induction text with
  | nil => simp [splitFirst?]
  | cons c text ih =>
    rw [splitFirst?]
    split
    · next h => simp [h]
    · next h => simp [ih, Ne.symm h]

theorem splitFirst?_append {sep : Char} {left : List Char} (h : sep ∉ left) (right : List Char) :
    splitFirst? sep (left ++ sep :: right) = some (left, right) := by
  induction left with
  | nil => simp [splitFirst?]
  | cons c left ih =>
    rw [List.mem_cons, not_or] at h
    rw [List.cons_append, splitFirst?, if_neg (Ne.symm h.1), ih h.2]
    rfl

/-! ### Letters -/

theorem isAlpha_iff (c : Char) :
    c.isAlpha = true ↔
      0x41 ≤ c.toNat ∧ c.toNat ≤ 0x5a ∨ 0x61 ≤ c.toNat ∧ c.toNat ≤ 0x7a := by
  have hupper : c.isUpper = true ↔ 0x41 ≤ c.toNat ∧ c.toNat ≤ 0x5a := decide_eq_true_iff
  have hlower : c.isLower = true ↔ 0x61 ≤ c.toNat ∧ c.toNat ≤ 0x7a :=
    Bool.and_eq_true_iff.trans (and_congr decide_eq_true_iff decide_eq_true_iff)
  rw [← hupper, ← hlower]
  exact Bool.or_eq_true_iff

theorem isWhite_of_isAlpha {c : Char} (h : c.isAlpha = true) : isWhite c = false := by
  have hletter := (isAlpha_iff c).mp h
  simp only [isWhite, Bool.or_eq_false_iff, Bool.and_eq_false_iff, decide_eq_false_iff_not]
  omega

end MakeLint.Text
