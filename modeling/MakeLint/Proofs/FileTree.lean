import MakeLint.Makefile.Linting
/-!
# Entries of the current directory

A path that is a single name leads to the entry of that name in the directory that a tree is seen from,
unless the entry is a link. So a file beside the run is found, opened and read under its own name.
-/

namespace MakeLint

namespace Text

theorem splitAll_of_not_mem {sep : Char} {cs : List Char} (h : sep ∉ cs) :
    splitAll sep cs = [cs] := by
  induction cs with
  | nil => rfl
  | cons c rest ih =>
    have hc : c ≠ sep := fun hc => h (by simp [hc])
    have hrest : sep ∉ rest := fun hmem => h (List.mem_cons_of_mem c hmem)
    rw [splitAll, if_neg hc, ih hrest]

end Text

namespace Node

theorem get?_append (n : Node) (place below : List String) :
    n.get? (place ++ below) = (n.get? place).bind fun m => m.get? below := by
  induction place generalizing n with
  | nil => rfl
  | cons name place ih =>
    rw [List.cons_append, get?, get?, Option.bind_assoc]
    exact congrArg (Option.bind (n.child? name)) (funext ih)

/-- Only a directory has children. -/
theorem isDirectory_of_child? {n child : Node} {name : String} (h : n.child? name = some child) :
    n.isDirectory = true := by
  cases n with
  | directory => rfl
  | file | locked | device | link => cases h

end Node

/-- Text that can be the name of a file, and names no other place. -/
def Path.IsName (name : String) : Prop :=
  '/' ∉ name.toList ∧ '\x00' ∉ name.toList ∧ name ≠ "" ∧ name ≠ "." ∧ name ≠ ".." ∧
    name.utf8ByteSize ≤ 255

instance (name : String) : Decidable (Path.IsName name) :=
  inferInstanceAs (Decidable (_ ∧ _))

namespace Path

variable {name : String}

theorem parts_of_isName (h : IsName name) : (Path.mk name).parts = [name] := by
  rw [parts, Text.splitAll_of_not_mem h.1]
  simp

theorem isAbsolute_of_isName (h : IsName name) : (Path.mk name).isAbsolute = false := by
  rw [isAbsolute, decide_eq_false_iff_not]
  intro hhead
  exact h.1 (List.mem_of_head? hhead)

end Path

namespace FileView

variable {v : FileView} {name : String} {dir node : Node}

theorem target_of_isName (h : Path.IsName name) :
    v.target ⟨name⟩ = follow v.root 40 v.here [name] := by
  obtain ⟨-, hnul, hempty, -, -, hsize⟩ := id h
  have hnul' : name.contains '\x00' = false := by
    rw [Bool.eq_false_iff]
    simpa using hnul
  rw [target, if_neg (by simp [hnul']), if_neg hempty, if_neg (by dsimp only; omega),
    Path.isAbsolute_of_isName h, if_neg Bool.false_ne_true, Path.parts_of_isName h]

theorem find_of_isName (h : Path.IsName name) (hdir : v.root.get? v.here = some dir)
    (hnode : dir.child? name = some node) (hlink : ∀ target, node ≠ .link target) :
    v.find ⟨name⟩ = .ok (v.here ++ [name], node) := by
  obtain ⟨-, -, hempty, hdot, hdots, hsize⟩ := id h
  have hplace : v.root.get? (v.here ++ [name]) = some node := by
    rw [Node.get?_append, hdir]
    simp [Node.get?, hnode]
  have hend : follow v.root 40 (v.here ++ [name]) [] = .ok (.found (v.here ++ [name]) node) := by
    rw [follow.eq_def, hplace]
  have hfollow : follow v.root 40 v.here [name] = .ok (.found (v.here ++ [name]) node) := by
    rw [follow.eq_def, hdir]
    simp only [Node.isDirectory_of_child? hnode, Path.isFiller, isTooLong, hnode]
    rw [if_neg (by simp), if_neg (by simp [hempty, hdot]), if_neg hdots,
      if_neg (by simpa using hsize)]
    cases node with
    | link target => exact absurd rfl (hlink target)
    | file | locked | device | directory => exact hend
  rw [find, target_of_isName h, hfollow]

end FileView

theorem Makefile.readFile_of_isName {v : FileView} {name : String} {dir : Node} {content : Bytes}
    (h : Path.IsName name) (hdir : v.root.get? v.here = some dir)
    (hfile : dir.child? name = some (.file content)) :
    readFile v ⟨name⟩ = .ok content := by
  have hfind := FileView.find_of_isName h hdir hfile (by simp)
  rw [readFile, FileView.openable, FileView.read, hfind]

end MakeLint
