import MakeLint.Proofs.Sink
/-!
# Further down

What is found in a text that stands further down in its source is found further down, and nothing else
about it changes. The registry does not look at where a notice points.
-/

namespace MakeLint

def Location.shift (k : Nat) (l : Location) : Location :=
  { l with line := l.line + k, endLine := l.endLine.map (· + k) }

def Finding.shift (k : Nat) (f : Finding) : Finding :=
  { f with location := f.location.shift k }

theorem Finding.shift_zero (f : Finding) : f.shift 0 = f := by
  obtain ⟨defect, path, line, endLine⟩ := f
  cases endLine <;> rfl

theorem Finding.map_shift_zero (findings : List Finding) :
    findings.map (Finding.shift 0) = findings := by
  rw [show Finding.shift 0 = id from funext shift_zero, List.map_id]

def Notice.shift (k : Nat) : Notice → Notice
  | .warn cls severity location message =>
    .warn cls severity (location.map (Location.shift k)) message
  | .info cls message => .info cls message
  | .tip cls message => .tip cls message

def Diagnostic.shift (k : Nat) (d : Diagnostic) : Diagnostic :=
  { d with location := d.location.map (Location.shift k) }

theorem Registry.diagnostic?_shift (r : Registry) (k : Nat) (n : Notice) :
    r.diagnostic? (n.shift k) = (r.diagnostic? n).map (Diagnostic.shift k) := by
  cases n with
  | warn cls severity location message =>
    simp only [Notice.shift, diagnostic?]
    cases r.action cls <;> rfl
  | info cls message =>
    simp only [Notice.shift, diagnostic?]
    split <;> rfl
  | tip cls message =>
    simp only [Notice.shift, diagnostic?]
    split <;> rfl

theorem Defect.map_shift_notes (k : Nat) (d : Defect) : d.notes.map (Notice.shift k) = d.notes := by
  cases d with
  | wideLine _ _ tipped => cases tipped <;> rfl
  | _ => rfl

theorem Finding.notices_shift (k : Nat) (f : Finding) :
    (f.shift k).notices = f.notices.map (Notice.shift k) := by
  rw [notices, notices, List.map_cons, Defect.map_shift_notes]
  rfl

theorem Registry.records_shift (r : Registry) (k : Nat) (findings : List Finding) :
    r.records (findings.map (Finding.shift k)) = (r.records findings).map (Diagnostic.shift k) := by
  rw [records, records, List.flatMap_map, List.map_filterMap]
  simp only [Finding.notices_shift]
  rw [← List.map_flatMap, List.filterMap_map]
  exact congrArg (List.filterMap · _) (funext (r.diagnostic?_shift k))

end MakeLint
