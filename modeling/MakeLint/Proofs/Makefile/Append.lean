import MakeLint.Proofs.Lint.Append
import MakeLint.Proofs.Makefile.Linting
/-!
# Makefiles one after the other

A makefile may be cut at the end of any line that does not continue. Both parts are linted on their
own, and what is found in them is what is found in the whole, the second part counted from where the
first ends. The findings come in another order, since the framing of the whole makefile is checked
before any of its lines.
-/

namespace MakeLint

namespace Line

open Bytes

/-! ### The lines of both parts -/

theorem ofBytes_append (name : String) (nestLevel : Nat) {a : Bytes} (ha : Terminated a)
    (b : Bytes) :
    ofBytes name nestLevel (a ++ b) =
      (ofBytes name nestLevel a).map (followedBy (withoutNul b).segments) ++
        numbered name nestLevel (1 + (ofBytes name nestLevel a).length)
          (withoutNul b).segments := by
  have ht := terminated_withoutNul ha
  rw [ofBytes, withoutNul_append, ht.segments_append, ← ht.segments_eq, numbered_append, ofBytes,
    length_numbered]

theorem map_data_ofBytes (name : String) (nestLevel : Nat) {a : Bytes} (ha : Terminated a) :
    (ofBytes name nestLevel a).map Line.data = (lines a).map withoutNul := by
  rw [ofBytes, map_data_numbered, (terminated_withoutNul ha).segments_eq, lines_withoutNul]

/-! ### Framing of both parts -/

theorem nulLines_append {a : Bytes} (ha : Terminated a) (n : Nat) (b : Bytes) :
    nulLines n (a ++ b) = nulLines n a ++ (nulLines n b).map (· + (lines a).length) := by
  rcases ha.cases with rfl | ⟨xs, rfl⟩
  · simp [lines_nil, nulLines]
  · rw [List.append_assoc, List.singleton_append, nulLines_append_newline, nulLines_append_newline,
      lines_append_newline, nulLines_add]
    simp [nulLines]

theorem lacksNewline_append {a : Bytes} (ha : Terminated a) (b : Bytes) :
    lacksNewline (a ++ b) = lacksNewline b := by
  cases b with
  | nil => rw [List.append_nil, (lacksNewline_eq_false_iff a).mpr ha]; rfl
  | cons x b => simp [lacksNewline, List.getLast?_cons]

theorem overlong_moved {k : Nat} {ls ms : List Line} (h : List.Forall₂ (Moved k) ls ms) :
    (ms.filter isOverlong).map (·.finding .overlongLine) =
      ((ls.filter isOverlong).map (·.finding .overlongLine)).map (Finding.shift k) := by
  induction h with
  | nil => rfl
  | @cons l m ls ms h _ ih =>
    have hlong : m.isOverlong = l.isOverlong := by
      rw [isOverlong, h.data]
      rfl
    rw [List.filter_cons, List.filter_cons, hlong]
    split
    · rw [List.map_cons, ih, List.map_cons, List.map_cons, h.alike.finding]
    · exact ih

theorem framingFindings_append (name : String) {a b : Bytes} {as as' bs bs' : List Line}
    (ha : Terminated a) (hlength : as.length = (lines a).length)
    (has : List.Forall₂ (Moved 0) as as') (hbs : List.Forall₂ (Moved as.length) bs bs') :
    (framingFindings name (a ++ b) (as' ++ bs')).Perm
      (framingFindings name a as ++
        (framingFindings name b bs).map (Finding.shift as.length)) := by
  have hnul : (nulLines 1 (a ++ b)).map
        (fun n => (⟨.nulByte, { path := name, line := n }⟩ : Finding)) =
      (nulLines 1 a).map (fun n => ⟨.nulByte, { path := name, line := n }⟩) ++
        ((nulLines 1 b).map fun n => ⟨.nulByte, { path := name, line := n }⟩).map
          (Finding.shift as.length) := by
    rw [nulLines_append ha, List.map_append, List.map_map, List.map_map, hlength]
    rfl
  have hmissing : (if lacksNewline (a ++ b) then
        [(⟨.missingNewline, { path := name, line := (as' ++ bs').length }⟩ : Finding)] else []) =
      (if lacksNewline b then
        [(⟨.missingNewline, { path := name, line := bs.length }⟩ : Finding)] else []).map
          (Finding.shift as.length) := by
    rw [lacksNewline_append ha, List.length_append, ← has.length_eq, ← hbs.length_eq, Nat.add_comm,
      apply_ite (List.map (Finding.shift as.length))]
    rfl
  have hover : ((as' ++ bs').filter isOverlong).map (·.finding .overlongLine) =
      (as.filter isOverlong).map (·.finding .overlongLine) ++
        ((bs.filter isOverlong).map (·.finding .overlongLine)).map (Finding.shift as.length) := by
    rw [List.filter_append, List.map_append, overlong_moved has, overlong_moved hbs,
      Finding.map_shift_zero]
  rw [framingFindings, hnul, hmissing, hover, framingFindings, framingFindings,
    (lacksNewline_eq_false_iff a).mpr ha, List.perm_iff_count]
  intro f
  simp only [List.map_append, List.count_append, Bool.false_eq_true, if_false, List.count_nil]
  omega

/-! ### What a part ends in -/

theorem endsHere_ofBytes (name : String) (nestLevel : Nat) {a : Bytes} (ha : Terminated a)
    (hlast : ∀ data ∈ (lines a).getLast?, ¬ EndsInBackslash data) :
    EndsHere (ofBytes name nestLevel a) := by
  intro l hl
  have hdata : ((lines a).map withoutNul).getLast? = some l.data := by
    rw [← map_data_ofBytes name nestLevel ha, List.getLast?_map, hl]
    rfl
  rw [List.getLast?_map] at hdata
  obtain ⟨line, hline, hl⟩ := Option.map_eq_some_iff.mp hdata
  rw [← hl, endsInBackslash_withoutNul]
  exact hlast line hline

theorem total_length_moved {k : Nat} {ls ms : List Line} (h : List.Forall₂ (Moved k) ls ms) :
    total (fun l => l.data.length + 1) ms = total (fun l => l.data.length + 1) ls := by
  induction h with
  | nil => rfl
  | cons h _ ih => rw [total_cons, ih, h.data, total_cons]

end Line

namespace Lint

open Bytes Line

/-- What is found in the whole is what is found in the parts, and its report adds theirs up. -/
theorem source_append (name : String) (style : Style) {a b : Bytes} (ha : Terminated a)
    (hlast : ∀ data ∈ (Bytes.lines a).getLast?, ¬ EndsInBackslash data) :
    (source name style (a ++ b)).1 =
      ⟨name, (source name style a).1.lines + (source name style b).1.lines,
        (source name style a).1.bytes + (source name style b).1.bytes,
        (source name style a).1.classes + (source name style b).1.classes⟩ ∧
      (source name style (a ++ b)).2.Perm ((source name style a).2 ++
        (source name style b).2.map (Finding.shift (source name style a).1.lines)) := by
  have hends := endsHere_ofBytes name 0 ha hlast
  have has := followedBy_moved (n := 1) hends (withoutNul b).segments
  have hbs := numbered_moved (ofBytes name 0 a).length name 0 1 (withoutNul b).segments
  rw [← ofBytes] at has hbs
  have hlines : (ofBytes name 0 a).length = (Bytes.lines a).length := by
    rw [length_ofBytes, ha.segments_eq]
  have hframing := framingFindings_append name (b := b) ha hlines has hbs
  obtain ⟨hcounts, hfound⟩ := lines_append style (endsHere_followedBy hends _)
    (numbered name 0 (1 + (ofBytes name 0 a).length) (withoutNul b).segments)
  rw [lines_congr style has, lines_moved style hbs] at hcounts hfound
  rw [← ofBytes_append name 0 ha] at hcounts hfound hframing
  have hlength : (ofBytes name 0 (a ++ b)).length =
      (ofBytes name 0 a).length + (ofBytes name 0 b).length := by
    rw [ofBytes_append name 0 ha, List.length_append, ← has.length_eq, ← hbs.length_eq]
  have hbytes : total (fun l => l.data.length + 1) (ofBytes name 0 (a ++ b)) =
      total (fun l => l.data.length + 1) (ofBytes name 0 a) +
        total (fun l => l.data.length + 1) (ofBytes name 0 b) := by
    rw [ofBytes_append name 0 ha, total_append, total_length_moved has, total_length_moved hbs]
  refine ⟨by simp only [source, hlength, hbytes, hcounts, shiftResult],
    (hframing.append hfound).trans ?_⟩
  simp only [source, shiftResult, List.map_append]
  rw [List.perm_iff_count]
  intro f
  simp only [List.count_append]
  omega

end Lint

/-- Linting a makefile is linting its parts, where it is cut at the end of a line that does not
continue. -/
theorem Makefile.lintBytes_append (r : Registry) (name : String) (style : Style) {a b : Bytes}
    (ha : Bytes.Terminated a)
    (hlast : ∀ line ∈ (Bytes.lines a).getLast?, ¬ Bytes.EndsInBackslash line) :
    let whole := lintBytes name style (a ++ b) { registry := r }
    let first := lintBytes name style a { registry := r }
    let second := lintBytes name style b { registry := r }
    whole.1.lines = first.1.lines + second.1.lines ∧
      whole.1.bytes = first.1.bytes + second.1.bytes ∧
      whole.1.classes = first.1.classes + second.1.classes ∧
      whole.2.records.toList.Perm (first.2.records.toList ++
        second.2.records.toList.map (Diagnostic.shift first.1.lines)) ∧
      whole.2.severity = max first.2.severity second.2.severity := by
  intro whole first second
  obtain ⟨hreport, hfound⟩ := Lint.source_append name style (b := b) ha hlast
  have hreport : whole.1 = ⟨name, first.1.lines + second.1.lines, first.1.bytes + second.1.bytes,
      first.1.classes + second.1.classes⟩ := hreport
  have hconsistent (bytes : Bytes) : (lintBytes name style bytes { registry := r }).2.Consistent :=
    consistent_lintBytes name style bytes (Sink.consistent_empty r)
  have hperm : whole.2.records.toList.Perm (first.2.records.toList ++
      second.2.records.toList.map (Diagnostic.shift first.1.lines)) := by
    rw [records_lintBytes, records_lintBytes, records_lintBytes]
    change (r.records _).Perm (r.records _ ++ (r.records _).map _)
    rw [← Registry.records_shift, ← Registry.records_append]
    exact (hfound.flatMap_right _).filterMap _
  refine ⟨by rw [hreport], by rw [hreport], by rw [hreport], hperm, ?_⟩
  have hshift : (Diagnostic.severity ∘ Diagnostic.shift first.1.lines) = Diagnostic.severity := rfl
  rw [hconsistent, hconsistent, hconsistent, Severity.max?_perm (hperm.filterMap _),
    List.filterMap_append, List.filterMap_map, hshift, Severity.max?_append]

/-- A continued line, and after it an indented comment with a NUL byte and no newline. -/
theorem Makefile.lintBytes_append_indented :
    let a : Bytes := [0x78, 0x20, 0x5c, 0x0a, 0x20, 0x79, 0x0a]
    let b : Bytes := [0x20, 0x23, 0x00]
    Bytes.Terminated a ∧ (∀ line ∈ (Bytes.lines a).getLast?, ¬ Bytes.EndsInBackslash line) ∧
      (lintBytes "Makefile" {} (a ++ b) { registry := .default }).1.lines = 3 ∧
      (lintBytes "Makefile" {} (a ++ b) { registry := .default }).2.severity = some .undefined := by
  intro a b
  have ha : Bytes.Terminated a := .inr rfl
  have hlast : ∀ line ∈ (Bytes.lines a).getLast?, ¬ Bytes.EndsInBackslash line := by decide
  obtain ⟨hlines, -, -, -, hseverity⟩ := lintBytes_append .default "Makefile" {} (b := b) ha hlast
  exact ⟨ha, hlast, hlines.trans (by decide), hseverity.trans (by decide)⟩

end MakeLint
