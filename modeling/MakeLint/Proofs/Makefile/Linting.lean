import MakeLint.Makefile.Linting
import MakeLint.Proofs.Sink
/-!
# What linting leaves in the sink

The findings of a makefile are the same under every registry, and the registry only decides what is
kept of them. So the records under a registry can be told from those under the registry that warns of
everything, one record at a time.
-/

namespace MakeLint.Makefile

theorem records_lintBytes (name : String) (style : Style) (bytes : Bytes) (s : Sink) :
    (lintBytes name style bytes s).2.records.toList =
      s.records.toList ++ s.registry.records (Lint.source name style bytes).2 :=
  s.records_addFindings _

/-- The records of a run that starts with none. -/
theorem records_lintBytes_new (r : Registry) (name : String) (style : Style) (bytes : Bytes) :
    (lintBytes name style bytes { registry := r }).2.records.toList =
      r.records (Lint.source name style bytes).2 := by
  rw [records_lintBytes]
  exact List.nil_append _

theorem consistent_lintBytes (name : String) (style : Style) (bytes : Bytes) {s : Sink}
    (h : s.Consistent) : (lintBytes name style bytes s).2.Consistent :=
  h.addAll _

/-- The registry filters the records of a run, and has no other part in it. -/
theorem lintBytes_under (r : Registry) (name : String) (style : Style) (bytes : Bytes) :
    let under := lintBytes name style bytes { registry := r }
    let warned := lintBytes name style bytes { registry := .warnAll }
    under.1 = warned.1 ∧
      under.2.records.toList = warned.2.records.toList.filterMap (Diagnostic.under r) ∧
      under.2.severity = (under.2.records.toList.filterMap Diagnostic.severity).max? := by
  intro under warned
  refine ⟨rfl, ?_, consistent_lintBytes name style bytes (Sink.consistent_empty r)⟩
  rw [records_lintBytes, records_lintBytes]
  exact Registry.records_under r _

end MakeLint.Makefile
