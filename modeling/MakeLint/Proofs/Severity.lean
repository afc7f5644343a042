import MakeLint.Severity
import Mathlib.Order.Basic
import Mathlib.Order.Lattice
/-!
# The order of severities

Severities are ordered by rank. The worse of two severities is their maximum, and so is the worse of
two outcomes, where no severity stands below any.
-/

namespace MakeLint.Severity

theorem rank_injective : Function.Injective rank := by
  intro a b h
  cases a <;> cases b <;> first | rfl | cases h

instance : LinearOrder Severity :=
  LinearOrder.lift' rank rank_injective

theorem worse_eq_max (a b : Severity) : worse a b = max a b := by
  rw [worse, max_def]
  rfl

theorem worst_eq_max (a b : Option Severity) : worst a b = max a b := by
  cases a <;> cases b <;> simp [worst, worse_eq_max]

/-- An outcome never gets better by another. -/
theorem le_worst (a b : Option Severity) : a ≤ worst a b := by
  rw [worst_eq_max]
  cases a with
  | none => exact Option.none_le
  | some a =>
    cases b with
    | none => exact Option.some_le_some.mpr le_rfl
    | some b => exact Option.some_le_some.mpr (le_max_left a b)

/-- The ranks start above the exit status of a run without a severity. -/
theorem exitStatus_eq_zero_iff (outcome : Option Severity) :
    exitStatus outcome = 0 ↔ outcome = none := by
  cases outcome with
  | none => exact iff_of_true rfl rfl
  | some s => cases s <;> decide

theorem max?_append (xs ys : List Severity) : (xs ++ ys).max? = max xs.max? ys.max? := by
  induction xs with
  | nil => simp
  | cons x xs ih =>
    rw [List.cons_append, List.max?_cons, List.max?_cons, ih]
    cases xs.max? <;> cases ys.max? <;> simp [max_assoc]

theorem max?_perm {xs ys : List Severity} (h : xs.Perm ys) : xs.max? = ys.max? := by
  induction h with
  | nil => rfl
  | cons x _ ih => rw [List.max?_cons, List.max?_cons, ih]
  | swap x y l =>
    rw [List.max?_cons, List.max?_cons, List.max?_cons, List.max?_cons]
    cases l.max? <;> simp [max_comm, max_left_comm]
  | trans _ _ ih₁ ih₂ => exact ih₁.trans ih₂

/-! ### Exit statuses -/

end MakeLint.Severity
