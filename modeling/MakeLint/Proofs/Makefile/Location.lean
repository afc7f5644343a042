import MakeLint.Proofs.Finding
import MakeLint.Proofs.Line.Physical
import MakeLint.Proofs.Lint.Findings
import MakeLint.Proofs.Makefile.Linting
/-!
# Places in a makefile

Every location that is shown can be looked up: it is a line of the makefile, or a span of its lines over
which a continuation reaches. A span is found only where text is joined without white space, and it
can be told from the bytes of the makefile, since neither the loader nor the repair makes a line that
ends in a backslash of one that does not.
-/

namespace MakeLint

/-- From the first of the physical lines up to the last, each line is continued on the next one, and
those in between hold nothing but their backslash. -/
def Bytes.Continued (bytes : Bytes) (first last : Nat) : Prop :=
  ∀ k, first ≤ k → k < last → ∃ text, (bytes.splitOn Byte.newline)[k - 1]? = some text ∧
    EndsInBackslash text ∧ (first < k → text = [Byte.backslash])

namespace Finding

/-- Points at one line of a source. -/
def Points (name : String) (lines : Nat) (f : Finding) : Prop :=
  ∃ n, f.location = { path := name, line := n } ∧ 1 ≤ n ∧ n ≤ lines

/-- Points from one line of a source to a later one, over lines that are continued. -/
def Bridges (name : String) (lines : Nat) (bytes : Bytes) (f : Finding) : Prop :=
  ∃ first last, f.location = { path := name, line := first, endLine := some last } ∧ 1 ≤ first ∧
    first < last ∧ last ≤ lines ∧ bytes.Continued first last

end Finding

namespace Line

open Bytes

variable {name : String} {nestLevel : Nat} {bytes : Bytes} {f : Finding}

theorem points_finding {l : Line} (hl : l ∈ ofBytes name nestLevel bytes) (d : Defect) :
    (l.finding d).Points name (ofBytes name nestLevel bytes).length := by
  obtain ⟨i, hi, hget⟩ := List.mem_iff_getElem.mp hl
  obtain ⟨-, -, -, hlocation⟩ := exists_physical (List.getElem?_eq_some_iff.mpr ⟨hi, hget⟩)
  exact ⟨i + 1, hlocation, by omega, hi⟩

theorem points_of_mem_framingFindings
    (h : f ∈ framingFindings name bytes (ofBytes name nestLevel bytes)) :
    f.Points name (ofBytes name nestLevel bytes).length := by
  rcases mem_framingFindings h with ⟨n, hn, rfl⟩ | ⟨hlacks, rfl⟩ | ⟨l, hl, rfl⟩
  · have hbounds := nulLines_bounds hn
    rw [← length_ofBytes name nestLevel] at hbounds
    exact ⟨n, rfl, hbounds.1, by omega⟩
  · -- a source without bytes lacks nothing, so there is a last line to point at
    have hsome : segments bytes ≠ [] := by
      rw [Ne, segments_eq_nil_iff]
      rintro rfl
      cases hlacks
    have hlength := List.length_pos_iff.mpr hsome
    rw [← length_ofBytes name nestLevel] at hlength
    exact ⟨_, rfl, hlength, le_rfl⟩
  · exact points_finding hl .overlongLine

/-- Repaired lines end as the physical lines do. -/
theorem exists_physical_of_repaired {i : Nat} {m : Line}
    (h : ((ofBytes name nestLevel bytes).map Line.repair)[i]? = some m) :
    m.location = { path := name, line := i + 1 } ∧
      ∃ text, (bytes.splitOn Byte.newline)[i]? = some text ∧
        (EndsInBackslash m.data → EndsInBackslash text) ∧
        (m.data = [Byte.backslash] → text = [Byte.backslash]) := by
  rw [List.getElem?_map] at h
  obtain ⟨l, hl, rfl⟩ := Option.map_eq_some_iff.mp h
  obtain ⟨text, htext, hdata, hlocation⟩ := exists_physical hl
  refine ⟨hlocation, text, htext, ?_, ?_⟩
  · intro hends
    rwa [ends_repair, hdata, endsInBackslash_withoutNul] at hends
  · intro hbackslash
    have hloaded := eq_backslash_of_repair hbackslash
    rw [hdata] at hloaded
    exact eq_backslash_of_withoutNul hloaded

theorem bridges_of_spans (h : f.Spans ((ofBytes name nestLevel bytes).map Line.repair)) :
    f.Bridges name (ofBytes name nestLevel bytes).length bytes := by
  obtain ⟨i, n, first, last, hlocation, hfirst, hends, hbetween, hlast⟩ := h.exists_index
  have hbound : i + (n + 1) < (ofBytes name nestLevel bytes).length := by
    obtain ⟨hbound, -⟩ := List.getElem?_eq_some_iff.mp hlast
    rwa [List.length_map] at hbound
  have hnumber : last.number = i + (n + 1) + 1 :=
    congrArg Location.line (exists_physical_of_repaired hlast).1
  refine ⟨i + 1, last.number, ?_, by omega, by omega, by omega, ?_⟩
  · rw [hlocation, (exists_physical_of_repaired hfirst).1]
  · intro k hk hlt
    obtain ⟨j, rfl⟩ := Nat.exists_eq_add_of_le hk
    have hindex : i + 1 + j - 1 = i + j := by omega
    rw [hindex]
    cases j with
    | zero =>
      obtain ⟨-, text, htext, htextEnds, -⟩ := exists_physical_of_repaired hfirst
      exact ⟨text, htext, htextEnds hends, fun hlater => absurd hlater (by omega)⟩
    | succ j =>
      obtain ⟨m, hm, hdata⟩ := hbetween j (by omega)
      obtain ⟨-, text, htext, -, hbackslash⟩ := exists_physical_of_repaired hm
      obtain rfl := hbackslash hdata
      exact ⟨_, htext, rfl, fun _ => rfl⟩

end Line

/-- What is found in a source points at one of its lines, or bridges some of them if it is text that is
joined without white space. -/
theorem Lint.points_or_bridges {name : String} {style : Style} {bytes : Bytes} {f : Finding}
    (h : f ∈ (source name style bytes).2) :
    f.defect.cls ≠ .spacelessContinuation ∧ f.Points name (source name style bytes).1.lines ∨
      f.defect.cls = .spacelessContinuation ∧
        f.Bridges name (source name style bytes).1.lines bytes := by
  rcases List.mem_append.mp h with h | h
  · left
    rw [Line.cls_framingFindings h]
    exact ⟨by decide, Line.points_of_mem_framingFindings h⟩
  · rcases mem_lines h with hat | hspans
    · left
      refine ⟨hat.cls_ne (by decide), ?_⟩
      obtain ⟨l, hl, hlocation, -⟩ := hat
      obtain ⟨n, hn, hbounds⟩ := Line.points_finding hl f.defect
      exact ⟨n, hlocation.trans hn, hbounds⟩
    · exact .inr ⟨hspans.cls_eq, Line.bridges_of_spans hspans⟩

/-- Every location among the records of a makefile is one of its lines, or a span of its lines where
text is joined without white space. -/
theorem Makefile.location_of_mem_records {r : Registry} {name : String} {style : Style}
    {bytes : Bytes} {d : Diagnostic} {loc : Location}
    (hd : d ∈ (lintBytes name style bytes { registry := r }).2.records.toList)
    (hloc : d.location = some loc) :
    let lines := (lintBytes name style bytes { registry := r }).1.lines
    loc.path = name ∧ 1 ≤ loc.line ∧ loc.line ≤ lines ∧
      (loc.endLine.isSome = true ↔ d.cls = .spacelessContinuation) ∧
      ∀ last, loc.endLine = some last →
        loc.line < last ∧ last ≤ lines ∧ bytes.Continued loc.line last := by
  rw [records_lintBytes_new] at hd
  obtain ⟨f, hf, hcls, hlocation⟩ := Registry.exists_of_mem_records hd
  obtain rfl := hlocation loc hloc
  rcases Lint.points_or_bridges hf with ⟨hother, n, hn, hfrom, hto⟩ |
    ⟨hspaceless, first, last, hspan, hfrom, hlt, hto, hcontinued⟩
  · rw [hn, hcls]
    refine ⟨rfl, hfrom, hto, iff_of_false Bool.false_ne_true hother, ?_⟩
    intro last hlast
    cases hlast
  · rw [hspan, hcls]
    refine ⟨rfl, hfrom, hlt.le.trans hto, iff_of_true rfl hspaceless, ?_⟩
    intro last' hlast
    obtain rfl := Option.some.inj hlast
    exact ⟨hlt, hto, hcontinued⟩

/-- Text that is joined over a line of only a backslash, after a byte that is no character. -/
theorem Makefile.location_of_mem_records_bridged :
    let bytes : Bytes := [0xff, 0x5c, 0x0a, 0x5c, 0x0a, 0x79, 0x0a]
    let linted := lintBytes "Makefile" {} bytes { registry := .default }
    let loc : Location := { path := "Makefile", line := 1, endLine := some 3 }
    ∃ d ∈ linted.2.records.toList, d.location = some loc ∧ d.cls = .spacelessContinuation ∧
      3 ≤ linted.1.lines ∧ bytes.Continued 1 3 := by
  intro bytes linted loc
  have hd : ∃ d ∈ linted.2.records.toList, d.location = some loc := by decide
  obtain ⟨d, hd, hloc⟩ := hd
  obtain ⟨-, -, -, hcls, hlast⟩ := location_of_mem_records hd hloc
  obtain ⟨-, hlines, hcontinued⟩ := hlast 3 rfl
  exact ⟨d, hd, hloc, hcls.mp rfl, hlines, hcontinued⟩

end MakeLint
