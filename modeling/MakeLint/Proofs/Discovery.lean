import MakeLint.Discovery
import MakeLint.Proofs.FileTree
import MakeLint.Proofs.FileTree.Walk
import MakeLint.Proofs.Glob
import MakeLint.Proofs.Path.Order
/-!
# What discovery finds

With nothing ignored, discovery finds each root that is a file, and below each root that is a directory
the files whose names a pattern matches and that lie no deeper than they may. What it finds comes in the
order of paths, each path once, and is the same for any roots and patterns that are the same as sets.
-/

namespace MakeLint.Discovery

variable {e : Environment} {v : FileView} {c : Config} {globs : List Glob} {scope : Ignore.Scope}
  {roots : List Path} {root path : Path} {node : Node}

/-- One of the patterns between the commas of a list matches a name. -/
def IsMatched (list name : String) : Prop :=
  ∃ piece ∈ list.toList.splitOn ',', Text.trim piece ≠ [] ∧
    ∃ g, Glob.ofPattern (String.ofList (Text.trim piece)) = .ok g ∧ g.isMatch name = true

/-- A path names a file to be found below a node that a root leads to. -/
def IsBelow (v : FileView) (c : Config) (root : Path) (node : Node) (path : Path) : Prop :=
  ∃ dirs name found, node.LiesBelow (dirs ++ [name]) found ∧
    (0 < c.maxDepth → (dirs ++ [name]).length ≤ c.maxDepth) ∧
    path = (dirs ++ [name]).foldl Path.join root ∧ isFileAt v path found = true ∧
    IsMatched c.glob name

/-- A path is to be found: it is a root that is a file, or names a file below one that is a
directory. -/
inductive IsSought (v : FileView) (c : Config) (roots : List Path) : Path → Prop
  | root {root : Path} : root ∈ roots → v.isFile root = true → IsSought v c roots root
  | below {root path : Path} {place : List String} {es : List (String × Node)} :
      root ∈ roots → v.find root = .ok (place, .directory es) → IsBelow v c root (.directory es) path →
      IsSought v c roots path

/-! ### Below one root -/

theorem isWanted_iff (h : Glob.parseList c.glob = .ok globs) {name : String} :
    isWanted globs name = true ↔ IsMatched c.glob name := by
  rw [isWanted, List.any_eq_true]
  simp only [Glob.mem_of_parseList h, Glob.mem_patterns_iff, IsMatched]
  constructor
  · rintro ⟨g, ⟨_, ⟨piece, hpiece, hne, rfl⟩, hg⟩, hmatch⟩
    exact ⟨piece, hpiece, hne, g, hg, hmatch⟩
  · rintro ⟨piece, hpiece, hne, g, hg, hmatch⟩
    exact ⟨g, ⟨_, ⟨piece, hpiece, hne, rfl⟩, hg⟩, hmatch⟩

/-- With nothing ignored, a step goes on unless it would get too deep. -/
theorem step_eq (h : c.gitignore = false) (w : Walk) (name : String) (child : Node) :
    step v c w name child =
      if 0 < c.maxDepth ∧ c.maxDepth ≤ w.depth then none
      else some ⟨w.path.join name, w.depth + 1, w.scope⟩ := by
  simp [step, h]

/-- With nothing ignored, the walk from a root comes to what lies below it and not too deep. -/
theorem mem_walk_step (h : c.gitignore = false) {below : List String} {found : Node} :
    (below, found) ∈ node.walk (step v c) ⟨root, 0, scope⟩ ↔
      node.LiesBelow below found ∧ (0 < c.maxDepth → below.length ≤ c.maxDepth) := by
  have hgoes : ∀ (w : Walk) (name : String) (child : Node),
      (step v c w name child).isSome = true ↔ (0 < c.maxDepth → w.depth < c.maxDepth) := by
    intro w name child
    rw [step_eq h]
    split
    · next hdeep =>
      simp only [Option.isSome_none, Bool.false_eq_true, false_iff]
      omega
    · next hdeep =>
      simp only [Option.isSome_some, true_iff]
      omega
  have hdepth : ∀ (w : Walk) (name : String) (child : Node) (w' : Walk),
      step v c w name child = some w' → w'.depth = w.depth + 1 := by
    intro w name child w' hw
    rw [step_eq h] at hw
    split at hw
    · cases hw
    · rw [← Option.some.inj hw]
  rw [Node.mem_walk_iff hgoes hdepth, Nat.zero_add]

theorem mem_under (hopen : c.gitignore = false) (hglobs : Glob.parseList c.glob = .ok globs) :
    path ∈ under v c globs root scope node ↔ IsBelow v c root node path := by
  rw [under, List.mem_filterMap]
  dsimp only
  constructor
  · rintro ⟨⟨below, found⟩, hwalk, hpath⟩
    obtain ⟨hbelow, hdepth⟩ := (mem_walk_step hopen).mp hwalk
    obtain ⟨dirs, name, rfl⟩ := (List.eq_nil_or_concat' below).resolve_left hbelow.ne_nil
    split at hpath
    · next htaken =>
      obtain ⟨hfile, hwanted⟩ := Bool.and_eq_true_iff.mp htaken
      obtain rfl := Option.some.inj hpath
      rw [List.getLast?_concat, Option.getD_some, isWanted_iff hglobs] at hwanted
      exact ⟨dirs, name, found, hbelow, hdepth, rfl, hfile, hwanted⟩
    · cases hpath
  · rintro ⟨dirs, name, found, hbelow, hdepth, rfl, hfile, hmatched⟩
    refine ⟨(dirs ++ [name], found), (mem_walk_step hopen).mpr ⟨hbelow, hdepth⟩, if_pos ?_⟩
    rw [List.getLast?_concat, Option.getD_some, hfile, (isWanted_iff hglobs).mpr hmatched]
    rfl

/-- What one root that is no dash comes to. -/
theorem mem_ofRoot (hopen : c.gitignore = false) (hglobs : Glob.parseList c.glob = .ok globs)
    (hdash : e.files.isDirectory root = true → isDash root = false) :
    path ∈ (ofRoot e c globs root).1 ↔
      path = root ∧ e.files.isFile root = true ∨
        ∃ place es, e.files.find root = .ok (place, .directory es) ∧
          IsBelow e.files c root (.directory es) path := by
  rw [FileView.isDirectory] at hdash
  rw [ofRoot, FileView.isFile]
  cases hfind : e.files.find root with
  | error => simp
  | ok found =>
    obtain ⟨place, node⟩ := found
    rw [hfind] at hdash
    cases node with
    | file | locked => simp
    | device | link => simp
    | directory es =>
      have hplain : isDash root = false := hdash rfl
      simp [hplain, mem_under hopen hglobs]

/-! ### All roots -/

theorem discover_eq (e : Environment) (roots : List Path) (hglobs : Glob.parseList c.glob = .ok globs) :
    ∃ remarks, discover e c roots =
      .ok ⟨Path.sorted (roots.flatMap fun root => (ofRoot e c globs root).1), remarks⟩ := by
  rw [discover, hglobs]
  simp only [List.flatMap_map]
  exact ⟨_, rfl⟩

theorem mem_flatMap_ofRoot (hopen : c.gitignore = false) (hglobs : Glob.parseList c.glob = .ok globs)
    (hdash : ∀ root ∈ roots, e.files.isDirectory root = true → isDash root = false) :
    path ∈ (roots.flatMap fun root => (ofRoot e c globs root).1) ↔ IsSought e.files c roots path := by
  rw [List.mem_flatMap]
  constructor
  · rintro ⟨root, hroot, hpath⟩
    rcases (mem_ofRoot hopen hglobs (hdash root hroot)).mp hpath with
      ⟨rfl, hfile⟩ | ⟨place, es, hfind, hbelow⟩
    · exact .root hroot hfile
    · exact .below hroot hfind hbelow
  · intro h
    cases h with
    | root hroot hfile =>
      exact ⟨path, hroot, (mem_ofRoot hopen hglobs (hdash path hroot)).mpr (.inl ⟨rfl, hfile⟩)⟩
    | below hroot hfind hbelow =>
      exact ⟨_, hroot, (mem_ofRoot hopen hglobs (hdash _ hroot)).mpr (.inr ⟨_, _, hfind, hbelow⟩)⟩

/-- Of the globs, only their set matters to what a root comes to. -/
theorem ofRoot_congr {globs' : List Glob} (glob : String) (h : ∀ g, g ∈ globs' ↔ g ∈ globs) :
    (ofRoot e { c with glob := glob } globs' root).1 = (ofRoot e c globs root).1 := by
  have hwanted : isWanted globs' = isWanted globs := by
    funext name
    rw [Bool.eq_iff_iff, isWanted, isWanted, List.any_eq_true, List.any_eq_true]
    simp only [h]
  have hunder : ∀ scope node, under e.files { c with glob := glob } globs' root scope node =
      under e.files c globs root scope node := by
    intro scope node
    rw [under, under, hwanted]
    rfl
  rw [ofRoot, ofRoot]
  cases e.files.find root with
  | error => rfl
  | ok found =>
    obtain ⟨place, node⟩ := found
    cases node with
    | file | locked | device | link => rfl
    | directory es =>
      dsimp only
      split
      · rw [standardInput, standardInput, hwanted]
      · exact hunder _ _

/-- With nothing ignored and a list of patterns that is accepted, discovery finds what is sought, in the
order of paths and each path once, as long as the walker takes no directory for standard input. It finds
the same for roots and patterns that are the same as sets. -/
theorem discover_files (e : Environment) (c : Config) (roots : List Path) (globs : List Glob)
    (hopen : c.gitignore = false) (hglobs : Glob.parseList c.glob = .ok globs) :
    ∃ found, discover e c roots = .ok found ∧
      found.files.Pairwise (fun p q => p.compare q = .lt) ∧
      ((∀ root ∈ roots, e.files.isDirectory root = true → isDash root = false) →
        (∀ path ∈ found.files, IsSought e.files c roots path) ∧
        ∀ path, IsSought e.files c roots path →
          ∃ q ∈ found.files, q.components = path.components) ∧
      ∀ roots' glob, (∀ root, root ∈ roots' ↔ root ∈ roots) →
        (∀ pattern, pattern ∈ Glob.patterns glob ↔ pattern ∈ Glob.patterns c.glob) →
        ∃ found', discover e { c with glob := glob } roots' = .ok found' ∧
          found'.files.map Path.components = found.files.map Path.components := by
  obtain ⟨remarks, hfound⟩ := discover_eq e roots hglobs
  refine ⟨_, hfound, Path.pairwise_sorted _, fun hdash => ⟨fun path hpath => ?_, fun path hpath => ?_⟩,
    fun roots' glob hroots hpatterns => ?_⟩
  · exact (mem_flatMap_ofRoot hopen hglobs hdash).mp (Path.mem_of_mem_sorted hpath)
  · exact Path.exists_mem_sorted ((mem_flatMap_ofRoot hopen hglobs hdash).mpr hpath)
  · obtain ⟨globs', hglobs', hsame⟩ := Glob.parseList_congr hglobs hpatterns
    obtain ⟨remarks', hfound'⟩ := discover_eq (c := { c with glob := glob }) e roots' hglobs'
    refine ⟨_, hfound', Path.sorted_congr fun path => ?_⟩
    simp only [List.mem_flatMap, ofRoot_congr glob hsame, hroots]

/-- A makefile two directories down. -/
def twoDown : Environment where
  files := ⟨.directory [("sub", .directory [("deep", .directory [("a.mk", .file [])])])], []⟩
  home := none

theorem discover_files_deep :
    let c := Config.ofArguments { noGitignore := true, glob := " *.mk ,,", maxDepth := 2 }
    ∃ found, discover twoDown c [⟨"sub"⟩] = .ok found ∧
      ∃ path ∈ found.files, path.components = [.name "sub", .name "deep", .name "a.mk"] := by
  intro c
  have haccepted : (Glob.parseList c.glob).isOk = true := by decide +kernel
  cases hglobs : Glob.parseList c.glob with
  | error =>
    rw [hglobs] at haccepted
    cases haccepted
  | ok globs =>
    obtain ⟨found, hfound, -, hexact, -⟩ := discover_files twoDown c [⟨"sub"⟩] globs rfl hglobs
    obtain ⟨-, hcomplete⟩ := hexact fun root hroot _ => by
      rw [List.mem_singleton.mp hroot]
      decide +kernel
    refine ⟨found, hfound, ?_⟩
    have hfind : twoDown.files.find ⟨"sub"⟩ =
        .ok (["sub"], .directory [("deep", .directory [("a.mk", .file [])])]) :=
      FileView.find_of_isName (by decide +kernel) rfl rfl (by simp)
    have hmatched : IsMatched c.glob "a.mk" := by
      refine ⟨" *.mk ".toList, by decide +kernel, by decide +kernel, ?_⟩
      have hpattern : (match Glob.ofPattern "*.mk" with
          | .ok g => g.isMatch "a.mk"
          | .error _ => false) = true := by decide +kernel
      split at hpattern
      · next g hg => exact ⟨g, hg, hpattern⟩
      · cases hpattern
    have hsought : IsSought twoDown.files c [⟨"sub"⟩] ⟨"sub/deep/a.mk"⟩ := by
      have hbelow : Node.LiesBelow (.directory [("deep", .directory [("a.mk", .file [])])])
          (["deep"] ++ ["a.mk"]) (.file []) :=
        .deeper List.mem_cons_self (.entry List.mem_cons_self)
      exact .below List.mem_cons_self hfind
        ⟨["deep"], "a.mk", .file [], hbelow, by decide, by decide, rfl, hmatched⟩
    obtain ⟨path, hpath, hcomponents⟩ := hcomplete _ hsought
    exact ⟨path, hpath, hcomponents.trans (by decide +kernel)⟩

end MakeLint.Discovery
