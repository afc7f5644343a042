import MakeLint.Proofs.Sink
/-!
# Records of findings

A finding becomes a warning and the notes on it. All of them belong to the class of the defect, so that
the records of some classes are the records of the findings of those classes, and only the warning has
a location, that of the finding.
-/

namespace MakeLint

/-! ### Classes -/

/-- The notes on a defect belong to its class. -/
theorem Defect.cls_of_mem_notes {d : Defect} {n : Notice} (h : n ∈ d.notes) : n.cls = d.cls := by
  have hall : d.notes.map Notice.cls = List.replicate d.notes.length d.cls := by
    cases d with
    | wideLine _ _ tipped => cases tipped <;> rfl
    | _ => rfl
  exact List.eq_of_mem_replicate (hall ▸ List.mem_map_of_mem h)

theorem Finding.cls_of_mem_notices {f : Finding} {n : Notice} (h : n ∈ f.notices) :
    n.cls = f.defect.cls := by
  rcases List.mem_cons.mp h with rfl | h
  · rfl
  · exact Defect.cls_of_mem_notes h

/-! ### Locations -/

theorem Defect.location_of_mem_notes {d : Defect} {n : Notice} (h : n ∈ d.notes) :
    n.location = none := by
  have hall : d.notes.map Notice.location = List.replicate d.notes.length none := by
    cases d with
    | wideLine _ _ tipped => cases tipped <;> rfl
    | _ => rfl
  exact List.eq_of_mem_replicate (hall ▸ List.mem_map_of_mem h)

theorem Finding.location_of_mem_notices {f : Finding} {n : Notice} (h : n ∈ f.notices) :
    ∀ loc ∈ n.location, loc = f.location := by
  intro loc hloc
  rcases List.mem_cons.mp h with rfl | h
  · exact (Option.some.inj hloc).symm
  · rw [Defect.location_of_mem_notes h] at hloc
    cases hloc

/-! ### Findings of some classes -/

namespace Finding

variable {p q : WarningClass → Bool} {findings : List Finding}

/-- The findings whose classes pass the test. -/
def select (p : WarningClass → Bool) (findings : List Finding) : List Finding :=
  findings.filter fun f => p f.defect.cls

theorem select_cons (p : WarningClass → Bool) (f : Finding) (findings : List Finding) :
    select p (f :: findings) =
      if p f.defect.cls = true then f :: select p findings else select p findings :=
  List.filter_cons

theorem select_append (p : WarningClass → Bool) (as bs : List Finding) :
    select p (as ++ bs) = select p as ++ select p bs :=
  List.filter_append ..

theorem select_eq_self (h : ∀ f ∈ findings, p f.defect.cls = true) : select p findings = findings :=
  List.filter_eq_self.mpr h

theorem select_eq_nil (h : ∀ f ∈ findings, p f.defect.cls = false) : select p findings = [] := by
  rw [select, List.filter_eq_nil_iff]
  intro f hf
  rw [h f hf]
  exact Bool.false_ne_true

/-- A selection that is narrower than another can be made from it. -/
theorem select_select (h : ∀ cls, p cls = true → q cls = true) (findings : List Finding) :
    select p (select q findings) = select p findings := by
  rw [select, select, List.filter_filter]
  apply List.filter_congr
  intro f _
  cases hp : p f.defect.cls with
  | false => rfl
  | true => rw [h _ hp, Bool.true_and]

end Finding

/-! ### Records -/

namespace Registry

/-- A record goes back to a finding of its class, at its location if it has one. -/
theorem exists_of_mem_records {r : Registry} {findings : List Finding} {d : Diagnostic}
    (h : d ∈ r.records findings) :
    ∃ f ∈ findings, d.cls = f.defect.cls ∧ ∀ loc ∈ d.location, loc = f.location := by
  obtain ⟨n, hn, hd⟩ := List.mem_filterMap.mp h
  obtain ⟨f, hf, hn⟩ := List.mem_flatMap.mp hn
  have hkept := kept_of_diagnostic? hd
  refine ⟨f, hf, hkept.cls.trans (Finding.cls_of_mem_notices hn), ?_⟩
  rw [hkept.location]
  exact Finding.location_of_mem_notices hn

theorem records_cons (r : Registry) (f : Finding) (findings : List Finding) :
    r.records (f :: findings) = f.notices.filterMap r.diagnostic? ++ r.records findings := by
  rw [records, List.flatMap_cons, List.filterMap_append]
  rfl

/-- What is shown of findings of one class: all of their notices, or none if the class is ignored. -/
theorem records_of_cls {r : Registry} {cls : WarningClass} {findings : List Finding}
    (h : ∀ f ∈ findings, f.defect.cls = cls) :
    r.records findings =
      if r.action cls = .ignore then [] else (findings.flatMap Finding.notices).map r.shown := by
  apply filterMap_diagnostic?_of_cls
  intro n hn
  obtain ⟨f, hf, hn⟩ := List.mem_flatMap.mp hn
  exact (Finding.cls_of_mem_notices hn).trans (h f hf)

/-- The records of some classes are those of the findings of these classes. -/
theorem records_select (r : Registry) (p : WarningClass → Bool) (findings : List Finding) :
    (r.records findings).filter (fun d => p d.cls) = r.records (Finding.select p findings) := by
  induction findings with
  | nil => rfl
  | cons f findings ih =>
    have hcls : ∀ d ∈ f.notices.filterMap r.diagnostic?, d.cls = f.defect.cls := by
      intro d hd
      obtain ⟨n, hn, hd⟩ := List.mem_filterMap.mp hd
      exact (kept_of_diagnostic? hd).cls.trans (Finding.cls_of_mem_notices hn)
    rw [records_cons, List.filter_append, ih, Finding.select_cons]
    by_cases hf : p f.defect.cls = true
    · have hkept : (f.notices.filterMap r.diagnostic?).filter (fun d => p d.cls) =
          f.notices.filterMap r.diagnostic? := by
        rw [List.filter_eq_self]
        intro d hd
        rw [hcls d hd, hf]
      rw [hkept, if_pos hf, records_cons]
    · have hdropped : (f.notices.filterMap r.diagnostic?).filter (fun d => p d.cls) = [] := by
        rw [List.filter_eq_nil_iff]
        intro d hd
        rw [hcls d hd]
        exact hf
      rw [hdropped, if_neg hf, List.nil_append]

end Registry

end MakeLint
