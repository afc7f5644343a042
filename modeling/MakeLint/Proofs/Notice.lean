import MakeLint.Sink
import Mathlib.Data.List.Forall2
/-!
# What becomes of a notice

A notice of a class that is ignored leaves nothing. Any other is kept as one diagnostic of the same
class, place and wording, which counts as a warning and carries a severity together: exactly if the
notice was a warning and the action of its class lets warnings count.
-/

namespace MakeLint

/-- What a partial function makes of a list, one entry for each member that it is defined on. -/
theorem forall₂_filterMap {α β : Type} {p : α → Bool} {f : α → Option β}
    (h : ∀ a, (f a).isSome = p a) (as : List α) :
    List.Forall₂ (fun a b => f a = some b) (as.filter p) (as.filterMap f) := by
  induction as with
  | nil => exact .nil
  | cons a as ih =>
    rw [List.filter_cons, List.filterMap_cons, ← h a]
    cases ha : f a with
    | none => exact ih
    | some b => exact .cons ha ih

namespace Notice

/-- Where a notice points. -/
def location : Notice → Option Location
  | warn _ _ location _ => location
  | info _ _ => none
  | tip _ _ => none

def message : Notice → String
  | warn _ _ _ message => message
  | info _ message => message
  | tip _ message => message

/-- A warning of this severity. -/
def WarnsOf (n : Notice) (s : Severity) : Prop :=
  ∃ cls location message, n = .warn cls s location message

end Notice

namespace Registry

/-- Warnings of the class count. -/
def Counts (r : Registry) (cls : WarningClass) : Prop :=
  r.action cls = .style ∨ r.action cls = .warn

/-- The diagnostic is what is kept of the notice. -/
structure Kept (r : Registry) (n : Notice) (d : Diagnostic) : Prop where
  cls : d.cls = n.cls
  location : d.location = n.location
  message : d.message = n.message
  shown : r.action d.cls ≠ .ignore
  warns : d.kind = .warn ↔ d.severity.isSome = true
  severity : ∀ s, d.severity = some s ↔ n.WarnsOf s ∧ r.Counts n.cls

theorem kept_of_diagnostic? {r : Registry} {n : Notice} {d : Diagnostic}
    (h : r.diagnostic? n = some d) : r.Kept n d := by
  cases n with
  | warn cls severity location message =>
    cases haction : r.action cls with
    | ignore =>
      rw [diagnostic?, haction] at h
      cases h
    | inform =>
      rw [diagnostic?, haction] at h
      obtain rfl := Option.some.inj h
      have hcounts : ¬ r.Counts cls := by
        simp [Counts, haction]
      refine ⟨rfl, rfl, rfl, by simp [haction], by simp, fun s => ?_⟩
      simp [Notice.cls, hcounts]
    | style | warn =>
      rw [diagnostic?, haction] at h
      obtain rfl := Option.some.inj h
      have hcounts : r.Counts cls := by
        simp [Counts, haction]
      refine ⟨rfl, rfl, rfl, by simp [haction], by simp, fun s => ?_⟩
      simp [Notice.WarnsOf, Notice.cls, hcounts]
  | info cls message | tip cls message =>
    obtain ⟨hshown, rfl⟩ : r.action cls ≠ .ignore ∧ _ = d := by simpa [diagnostic?] using h
    refine ⟨rfl, rfl, rfl, hshown, by simp, fun s => ?_⟩
    simp [Notice.WarnsOf]

theorem diagnostic?_eq_none_iff (r : Registry) (n : Notice) :
    r.diagnostic? n = none ↔ r.action n.cls = .ignore := by
  cases n with
  | warn cls severity location message =>
    cases haction : r.action cls <;> simp [diagnostic?, Notice.cls, haction]
  | info cls message => simp [diagnostic?, Notice.cls]
  | tip cls message => simp [diagnostic?, Notice.cls]

/-- The diagnostic of a notice whose class is not ignored. -/
def shown (r : Registry) : Notice → Diagnostic
  | .warn cls severity location message =>
    if r.action cls = .inform then ⟨cls, .info, none, location, message⟩
    else ⟨cls, .warn, some severity, location, message⟩
  | .info cls message => ⟨cls, .info, none, none, message⟩
  | .tip cls message => ⟨cls, .tip, none, none, message⟩

theorem diagnostic?_eq_shown {r : Registry} {n : Notice} (h : r.action n.cls ≠ .ignore) :
    r.diagnostic? n = some (r.shown n) := by
  cases n with
  | warn cls severity location message =>
    rw [Notice.cls] at h
    rw [diagnostic?, shown]
    cases haction : r.action cls with
    | ignore => exact absurd haction h
    | inform | style | warn => rfl
  | info cls message | tip cls message => exact if_neg h

/-- The diagnostics of notices of one class: those of all of them, or none if the class is ignored. -/
theorem filterMap_diagnostic?_of_cls {r : Registry} {cls : WarningClass} {notices : List Notice}
    (h : ∀ n ∈ notices, n.cls = cls) :
    notices.filterMap r.diagnostic? =
      if r.action cls = .ignore then [] else notices.map r.shown := by
  split
  · next hignored =>
    rw [List.filterMap_eq_nil_iff]
    intro n hn
    rw [diagnostic?_eq_none_iff, h n hn, hignored]
  · next hshown =>
    rw [← List.filterMap_eq_map]
    apply List.filterMap_congr
    intro n hn
    exact diagnostic?_eq_shown (h n hn ▸ hshown)

/-- The diagnostics of notices are what is kept of those that are not ignored, one each. -/
theorem forall₂_kept (r : Registry) (notices : List Notice) :
    List.Forall₂ r.Kept (notices.filter fun n => r.action n.cls ≠ .ignore)
      (notices.filterMap r.diagnostic?) := by
  refine (forall₂_filterMap ?_ notices).imp ?_
  · intro n
    rw [Bool.eq_iff_iff, Option.isSome_iff_ne_none, decide_eq_true_iff]
    exact not_congr (r.diagnostic?_eq_none_iff n)
  · intro n d hd
    exact kept_of_diagnostic? hd

end Registry

end MakeLint
