import MakeLint.Warning.Registry
import Mathlib.Data.List.Nodup
/-!
# The last override wins

Overrides are applied in order, each on top of what those before it have left. What remains for a
class is the action of the last override that names it, and the default action where none does.
-/

namespace MakeLint

namespace WarningClass

theorem mem_all (cls : WarningClass) : cls ∈ all := by
  cases cls <;> decide

theorem name_injective : Function.Injective name := by
  intro a b h
  have hall : ∀ a ∈ all, ∀ b ∈ all, a.name = b.name → a = b := by decide
  exact hall a (mem_all a) b (mem_all b) h

theorem name_eq_of_ofName? {name : String} {cls : WarningClass} (h : ofName? name = some cls) :
    cls.name = name := by
  rw [ofName?] at h
  have hname := List.find?_some h
  exact beq_iff_eq.mp hname

/-- A class is found under its own name only. -/
theorem ofName?_eq_some_iff {name : String} {cls : WarningClass} :
    ofName? name = some cls ↔ name = cls.name := by
  constructor
  · intro h
    exact (name_eq_of_ofName? h).symm
  · rintro rfl
    have hfound : (ofName? cls.name).isSome = true := by
      rw [ofName?, List.find?_isSome]
      exact ⟨cls, mem_all cls, beq_self_eq_true _⟩
    obtain ⟨other, hother⟩ := Option.isSome_iff_exists.mp hfound
    rw [hother, name_injective (name_eq_of_ofName? hother)]

theorem ofName?_eq_none_iff {name : String} :
    ofName? name = none ↔ ∀ cls : WarningClass, cls.name ≠ name := by
  rw [Option.eq_none_iff_forall_ne_some]
  exact forall_congr' fun cls => not_congr (ofName?_eq_some_iff.trans eq_comm)

end WarningClass

namespace Override

/-- The action of the last override that names the class. -/
def lastFor? (cls : WarningClass) (overrides : List Override) : Option Action :=
  (overrides.filter (·.cls = cls)).getLast?.map Override.action

theorem lastFor?_append (cls : WarningClass) (earlier later : List Override) :
    lastFor? cls (earlier ++ later) = (lastFor? cls later).or (lastFor? cls earlier) := by
  simp only [lastFor?, List.filter_append, List.getLast?_append, Option.map_or]

theorem lastFor?_cons (cls : WarningClass) (o : Override) (later : List Override) :
    lastFor? cls (o :: later) =
      (lastFor? cls later).or (if o.cls = cls then some o.action else none) := by
  rw [← List.singleton_append, lastFor?_append]
  by_cases h : o.cls = cls <;> simp [lastFor?, h]

/-- Where each class is named once, the last override is the only one. -/
theorem lastFor?_eq_some_iff {overrides : List Override} (h : (overrides.map Override.cls).Nodup)
    {cls : WarningClass} {action : Action} :
    lastFor? cls overrides = some action ↔ ⟨cls, action⟩ ∈ overrides := by
  induction overrides with
  | nil => simp [lastFor?]
  | cons o later ih =>
    rw [List.map_cons, List.nodup_cons] at h
    obtain ⟨hnew, hlater⟩ := h
    rw [lastFor?_cons]
    by_cases ho : o.cls = cls
    · have hnone : lastFor? cls later = none := by
        have hfilter : later.filter (·.cls = cls) = [] := by
          rw [List.filter_eq_nil_iff]
          intro p hp hcls
          exact hnew (List.mem_map.mpr ⟨p, hp, (of_decide_eq_true hcls).trans ho.symm⟩)
        rw [lastFor?, hfilter]
        rfl
      have habsent : (⟨cls, action⟩ : Override) ∉ later := by
        intro hmem
        exact hnew (List.mem_map.mpr ⟨_, hmem, ho.symm⟩)
      rw [hnone, if_pos ho, List.mem_cons, or_iff_left habsent]
      obtain ⟨c, act⟩ := o
      simp [← ho, eq_comm]
    · have hother : (⟨cls, action⟩ : Override) ≠ o := by
        rintro rfl
        exact ho rfl
      rw [if_neg ho, Option.or_none, ih hlater, List.mem_cons, or_iff_right hother]

end Override

namespace Registry

theorem action_foldl_set (r : Registry) (overrides : List Override) (cls : WarningClass) :
    (overrides.foldl set r).action cls = (Override.lastFor? cls overrides).getD (r.action cls) := by
  induction overrides generalizing r with
  | nil => rfl
  | cons o later ih =>
    rw [List.foldl_cons, ih, Override.lastFor?_cons]
    cases Override.lastFor? cls later with
    | some action => rfl
    | none =>
      by_cases h : o.cls = cls
      · simp [set, h]
      · simp [set, h, Ne.symm h]

theorem action_withOverrides (overrides : List Override) (cls : WarningClass) :
    (withOverrides overrides).action cls =
      (Override.lastFor? cls overrides).getD cls.defaultAction :=
  action_foldl_set default overrides cls

end Registry

end MakeLint
