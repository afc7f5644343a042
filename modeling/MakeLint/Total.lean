/-!
# Totals

What the entries of a list count for, added up.
-/

namespace MakeLint

def total {α : Type} (count : α → Nat) (entries : List α) : Nat :=
  entries.foldr (fun a n => count a + n) 0

end MakeLint
