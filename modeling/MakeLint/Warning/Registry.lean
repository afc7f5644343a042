import MakeLint.Warning.Override
/-!
# Registry

The action of every class during one run: the default actions with overrides applied in order, so
that the last override of a class wins.
-/

namespace MakeLint

structure Registry where
  action : WarningClass → Action

namespace Registry

def default : Registry :=
  ⟨WarningClass.defaultAction⟩

def set (r : Registry) (o : Override) : Registry :=
  ⟨fun cls => if cls = o.cls then o.action else r.action cls⟩

def withOverrides (overrides : List Override) : Registry :=
  overrides.foldl set default

end Registry

instance : Inhabited Registry :=
  ⟨Registry.default⟩

end MakeLint
