import MakeLint.Finding
import MakeLint.Proofs.Notice
import MakeLint.Proofs.Severity
/-!
# What a sink keeps

A sink keeps, in order, what its registry makes of each notice, and beside it the worst severity among
what it keeps. The registry acts on one notice at a time: what it makes of a notice can be told from
what the registry that warns of everything makes of it.
-/

namespace MakeLint

/-- The registry that lets every diagnostic through as it is. -/
def Registry.warnAll : Registry :=
  ⟨fun _ => .warn⟩

/-- What becomes of a diagnostic that was let through as it is. -/
def Diagnostic.under (r : Registry) (d : Diagnostic) : Option Diagnostic :=
  match r.action d.cls with
  | .ignore => none
  | .inform => some (if d.severity.isSome then { d with kind := .info, severity := none } else d)
  | .style | .warn => some d

theorem Registry.diagnostic?_eq_bind (r : Registry) (n : Notice) :
    r.diagnostic? n = (warnAll.diagnostic? n).bind (Diagnostic.under r) := by
  cases n with
  | warn cls severity location message =>
    simp only [diagnostic?, warnAll, Option.bind_some, Diagnostic.under]
    cases r.action cls <;> rfl
  | info cls message =>
    simp only [diagnostic?, warnAll, reduceCtorEq, if_false, Option.bind_some, Diagnostic.under]
    cases r.action cls <;> rfl
  | tip cls message =>
    simp only [diagnostic?, warnAll, reduceCtorEq, if_false, Option.bind_some, Diagnostic.under]
    cases r.action cls <;> rfl

namespace Sink

/-- The severity of a sink is the worst among what it keeps. -/
def Consistent (s : Sink) : Prop :=
  s.severity = (s.records.toList.filterMap Diagnostic.severity).max?

theorem consistent_empty (r : Registry) : Consistent { registry := r } :=
  rfl

theorem Consistent.add {s : Sink} (h : s.Consistent) (n : Notice) : (s.add n).Consistent := by
  unfold Sink.add
  split
  · exact h
  · next d _ =>
    have hlast : ([d].filterMap Diagnostic.severity).max? = d.severity := by
      cases hd : d.severity <;> simp [hd]
    change Severity.worst s.severity d.severity = _
    rw [Severity.worst_eq_max, h, Array.toList_push, List.filterMap_append, Severity.max?_append,
      hlast]

theorem Consistent.addAll {s : Sink} (h : s.Consistent) (notices : List Notice) :
    (s.addAll notices).Consistent := by
  induction notices generalizing s with
  | nil => exact h
  | cons n notices ih => exact ih (h.add n)

/-- A sink that has no severity keeps no warning. -/
theorem Consistent.severity_eq_none_iff {s : Sink} (h : s.Consistent) :
    s.severity = none ↔ ∀ d ∈ s.records.toList, d.severity = none := by
  rw [h, List.max?_eq_none_iff, List.filterMap_eq_nil_iff]

theorem severity_add (s : Sink) (n : Notice) :
    (s.add n).severity =
      Severity.worst s.severity ((s.registry.diagnostic? n).bind Diagnostic.severity) := by
  unfold add
  cases s.registry.diagnostic? n with
  | none => exact Option.merge_none_right.symm
  | some d => rfl

theorem severity_le_add (s : Sink) (n : Notice) : s.severity ≤ (s.add n).severity := by
  rw [severity_add]
  exact Severity.le_worst _ _

theorem registry_add (s : Sink) (n : Notice) : (s.add n).registry = s.registry := by
  unfold add
  split <;> rfl

theorem records_add (s : Sink) (n : Notice) :
    (s.add n).records.toList = s.records.toList ++ (s.registry.diagnostic? n).toList := by
  unfold add
  split <;> simp [*]

theorem records_addAll (s : Sink) (notices : List Notice) :
    (s.addAll notices).records.toList =
      s.records.toList ++ notices.filterMap s.registry.diagnostic? := by
  induction notices generalizing s with
  | nil => simp [addAll]
  | cons n notices ih =>
    have hrest := ih (s.add n)
    rw [records_add, registry_add] at hrest
    rw [addAll, List.foldl_cons, ← addAll, hrest, List.append_assoc, List.filterMap_cons]
    cases s.registry.diagnostic? n <;> simp

/-! ### Sinks that start with nothing -/

theorem records_addAll_new (r : Registry) (notices : List Notice) :
    (({ registry := r } : Sink).addAll notices).records.toList = notices.filterMap r.diagnostic? :=
  records_addAll _ notices

/-- Whatever is in the sink has been kept of a notice. -/
theorem exists_kept_of_mem {r : Registry} {notices : List Notice} {d : Diagnostic}
    (h : d ∈ (({ registry := r } : Sink).addAll notices).records.toList) : ∃ n, r.Kept n d := by
  rw [records_addAll_new] at h
  obtain ⟨n, -, hn⟩ := List.mem_filterMap.mp h
  exact ⟨n, Registry.kept_of_diagnostic? hn⟩

/-- Having no severity is having no warning. -/
theorem severity_addAll_eq_none_iff (r : Registry) (notices : List Notice) :
    (({ registry := r } : Sink).addAll notices).severity = none ↔
      ∀ d ∈ (({ registry := r } : Sink).addAll notices).records.toList, d.kind ≠ .warn := by
  rw [((consistent_empty r).addAll notices).severity_eq_none_iff]
  refine forall₂_congr fun d hd => ?_
  obtain ⟨n, hn⟩ := exists_kept_of_mem hd
  rw [Ne, hn.warns, Bool.not_eq_true, Option.isSome_eq_false_iff, Option.isNone_iff_eq_none]

end Sink

/-- The diagnostics that a registry makes of findings. -/
def Registry.records (r : Registry) (findings : List Finding) : List Diagnostic :=
  (findings.flatMap Finding.notices).filterMap r.diagnostic?

theorem Sink.records_addFindings (s : Sink) (findings : List Finding) :
    (s.addFindings findings).records.toList = s.records.toList ++ s.registry.records findings :=
  s.records_addAll _

namespace Registry

theorem records_append (r : Registry) (as bs : List Finding) :
    r.records (as ++ bs) = r.records as ++ r.records bs := by
  rw [records, List.flatMap_append, List.filterMap_append]
  rfl

theorem records_under (r : Registry) (findings : List Finding) :
    r.records findings = (warnAll.records findings).filterMap (Diagnostic.under r) := by
  rw [records, records, List.filterMap_filterMap]
  exact congrArg (List.filterMap · _) (funext r.diagnostic?_eq_bind)

/-- Where no class is ignored, nothing is shown only if nothing was found. -/
theorem records_eq_nil_iff {r : Registry} (h : ∀ cls, r.action cls ≠ .ignore)
    (findings : List Finding) : r.records findings = [] ↔ findings = [] := by
  constructor
  · intro hnone
    cases findings with
    | nil => rfl
    | cons f findings =>
      have hwarning := List.filterMap_eq_nil_iff.mp hnone f.warning (by simp [Finding.notices])
      exact absurd ((r.diagnostic?_eq_none_iff f.warning).mp hwarning) (h f.warning.cls)
  · rintro rfl
    rfl

end Registry

end MakeLint
