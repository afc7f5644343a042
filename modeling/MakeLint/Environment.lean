import MakeLint.FileTree
/-!
# Environment

What a run sees of the world around it.
-/

namespace MakeLint

structure Environment where
  files : FileView
  home : Option Path
  stdin : Bytes := []
  /-- The environment variables that are set. -/
  settings : List (String × String) := []

def Environment.value? (e : Environment) (name : String) : Option String :=
  e.settings.lookup name

end MakeLint
