import Mathlib.Data.List.Infix
import MakeLint.Arguments.Reader
import MakeLint.Config.Search
import MakeLint.Proofs.FileTree.Directory
/-!
# Where a configuration file is looked for

The search climbs through the directories around its start, and in each of them asks for the same names
as a look into the directory itself would. From an absolute path it climbs to the root. From a relative
path it climbs to the current directory and no further, since a parent is taken from the text of the
path; what stands above the current directory is found only if the directory is spelled from the root.
-/

namespace MakeLint

namespace ConfigSearch

variable {v : FileView} {p dir start : Path} {place d : List String}

/-! ### The climb -/

/-- The places from the one that a path names up to where it starts. -/
def within (v : FileView) (p : Path) : List (List String) :=
  p.names.inits.reverse.map (v.base p ++ ·)

/-- The places that a path leads to and up through: once it is where it starts, it is there once more if
it begins with a dot. -/
def places (v : FileView) (p : Path) : List (List String) :=
  within v p ++ if p.head? = some .current then [v.here] else []

theorem inits_reverse_of_ne_nil {α : Type} {l : List α} (h : l ≠ []) :
    l.inits.reverse = l :: l.dropLast.inits.reverse := by
  obtain ⟨init, last, rfl⟩ := List.eq_nil_or_concat l |>.resolve_left h
  simp [List.inits_append]

theorem climb_leadsTo {fuel : Nat} (hfuel : p.steps < fuel) (h : v.LeadsTo p place) :
    List.Forall₂ v.LeadsTo (climb fuel p) (places v p) := by
  induction fuel generalizing p place with
  | zero => omega
  | succ fuel ih =>
    have hplace := h.place_eq
    by_cases hnames : p.names = []
    · have hparent := Path.parent?_of_nameless hnames
      rw [hnames, List.append_nil] at hplace
      subst hplace
      by_cases hhead : p.head? = some .current
      · rw [if_pos hhead] at hparent
        have hbase := FileView.base_of_current (v := v) hhead
        rw [hbase] at h
        have hempty := FileView.leadsTo_empty h.isDirectory.choose_spec
        obtain ⟨rest, rfl⟩ : ∃ rest, fuel = rest + 1 := by
          rw [Path.steps, if_pos hhead] at hfuel
          exact ⟨fuel - 1, by omega⟩
        have hlast : (Path.mk "").parent? = none := by decide
        have hclimb : climb (rest + 1 + 1) p = [p, ⟨""⟩] := by simp [climb, hparent, hlast]
        rw [hclimb, places, within, hnames, if_pos hhead, hbase]
        simpa using ⟨h, hempty⟩
      · rw [if_neg hhead] at hparent
        simp [climb, hparent, places, within, hnames, hhead, h]
    · obtain ⟨q, hparent, hisParent⟩ := Path.exists_parent? hnames
      have hq := h.parent hisParent hnames
      have hplaces : places v p = place :: places v q := by
        rw [places, within, inits_reverse_of_ne_nil hnames, List.map_cons, ← hplace,
          ← hisParent.names, places, within, FileView.base_congr hisParent.head?, hisParent.head?]
        rfl
      have hsteps : q.steps < fuel := by
        have hpos := List.length_pos_iff.mpr hnames
        rw [Path.steps, hisParent.head?, hisParent.names, List.length_dropLast]
        rw [Path.steps] at hfuel
        omega
      rw [hplaces, climb, hparent]
      exact .cons h (ih hsteps hq)

/-- The directories of the search lead to the places that its start names. -/
theorem directories_leadsTo (h : v.LeadsTo p place) :
    List.Forall₂ v.LeadsTo (directories p) (places v p) :=
  climb_leadsTo (Nat.lt_succ_of_le (Path.steps_le p)) h

/-! ### A look into a directory -/

theorem isName_of_mem_fileNames : ∀ name ∈ fileNames, Path.IsName name := by
  decide +kernel

/-- Whether a directory holds something under a name that its path has room for. -/
def holds (v : FileView) (dir : Path) (d : List String) (name : String) : Bool :=
  (dir.join name).text.utf8ByteSize < 4096 && (v.seenFrom d).exists? ⟨name⟩

theorem exists?_join (h : v.LeadsTo dir d) {name : String} (hname : Path.IsName name) :
    v.exists? (dir.join name) = holds v dir d name := by
  rw [FileView.exists?, h.find_join hname, holds]
  by_cases hlong : 4096 ≤ (dir.join name).text.utf8ByteSize
  · rw [if_pos hlong, decide_eq_false (by omega)]
    rfl
  · rw [if_neg hlong, decide_eq_true (by omega), Bool.true_and]
    rfl

theorem inDirectory?_eq (h : v.LeadsTo dir d) :
    inDirectory? v dir = (fileNames.find? (holds v dir d)).map dir.join := by
  have hsame : fileNames.filter (v.exists? ∘ dir.join) = fileNames.filter (holds v dir d) :=
    List.filter_congr fun name hname => exists?_join h (isName_of_mem_fileNames name hname)
  rw [inDirectory?, List.find?_map, ← List.head?_filter, hsame, List.head?_filter]

/-- The first existing file of a climb with the places that its directories lead to. -/
def firstOnTrail (v : FileView) (dirs : List Path) (ds : List (List String)) : Option Path :=
  (dirs.zip ds).findSome? fun (dir, d) => (fileNames.find? (holds v dir d)).map dir.join

theorem findSome?_inDirectory? {dirs : List Path} {ds : List (List String)}
    (h : List.Forall₂ v.LeadsTo dirs ds) :
    dirs.findSome? (inDirectory? v) = firstOnTrail v dirs ds := by
  induction h with
  | nil => rfl
  | cons hdir _ ih =>
    rw [List.findSome?_cons, inDirectory?_eq hdir, ih, firstOnTrail, firstOnTrail,
      List.zip_cons_cons, List.findSome?_cons]

/-! ### What is found -/

/-- What a path that was picked leads to. -/
def target? (v : FileView) (picked : Option Path) : Option (List String × Node) :=
  picked.bind fun path => (v.find path).toOption

/-- What the first configuration file of a directory leads to. -/
def foundIn? (v : FileView) (d : List String) : Option (List String × Node) :=
  fileNames.findSome? fun name => ((v.seenFrom d).find ⟨name⟩).toOption

/-- A look into a directory that has no link under one of the names is a look at its entries. -/
theorem foundIn?_eq {es : List (String × Node)} (hdir : v.root.get? d = some (.directory es))
    (hlinks : ∀ name ∈ fileNames, ∀ target, es.lookup name ≠ some (.link target)) :
    foundIn? v d = fileNames.findSome? fun name =>
      (es.lookup name).map fun entry => (d ++ [name], entry) := by
  have hnames := isName_of_mem_fileNames
  rw [foundIn?]
  generalize fileNames = names at hlinks hnames
  induction names with
  | nil => rfl
  | cons name rest ih =>
    have hfind := FileView.toOption_find_of_isName (v := v.seenFrom d)
      (hnames name List.mem_cons_self) hdir (hlinks name List.mem_cons_self)
    rw [List.findSome?_cons, List.findSome?_cons, hfind,
      ih (fun other hother => hlinks other (List.mem_cons_of_mem _ hother))
        (fun other hother => hnames other (List.mem_cons_of_mem _ hother))]
    rfl

/-- What the configuration file of the home directory leads to. -/
def foundAtHome? (e : Environment) : Option (List String × Node) :=
  e.home.bind fun home => target? e.files (inDirectory? e.files home)

/-- A configuration file's name fits behind the path. -/
def HasRoom (p : Path) : Prop :=
  p.text.utf8ByteSize + 14 < 4096

instance (p : Path) : Decidable (HasRoom p) :=
  inferInstanceAs (Decidable (_ < _))

theorem exists?_eq_isSome (v : FileView) (p : Path) :
    v.exists? p = (v.find p).toOption.isSome := by
  rw [FileView.exists?]
  cases v.find p <;> rfl

theorem target?_firstExisting (v : FileView) (paths : List Path) :
    target? v (paths.find? v.exists?) = paths.findSome? fun path => (v.find path).toOption := by
  induction paths with
  | nil => rfl
  | cons path rest ih =>
    rw [List.find?_cons, List.findSome?_cons, exists?_eq_isSome, ← ih]
    cases h : (v.find path).toOption with
    | none => simp
    | some => simp [target?, h]

theorem isSome_target? {dir path : Path} (h : inDirectory? v dir = some path) :
    (target? v (some path)).isSome = true := by
  have hexists := List.find?_some h
  rwa [exists?_eq_isSome] at hexists

/-- What the first file of a climb leads to is the first thing found in its directories. -/
theorem target?_findSome? (v : FileView) (dirs : List Path) :
    target? v (dirs.findSome? (inDirectory? v)) =
      dirs.findSome? fun dir => target? v (inDirectory? v dir) := by
  induction dirs with
  | nil => rfl
  | cons dir rest ih =>
    rw [List.findSome?_cons, List.findSome?_cons, ← ih]
    cases h : inDirectory? v dir with
    | none => rfl
    | some path =>
      obtain ⟨t, ht⟩ := Option.isSome_iff_exists.mp (isSome_target? h)
      simp [ht]

theorem target?_inDirectory? (h : v.LeadsTo dir d) (hroom : HasRoom dir) :
    target? v (inDirectory? v dir) = foundIn? v d := by
  have hsizes : ∀ name ∈ fileNames, name.utf8ByteSize ≤ 13 := by decide +kernel
  rw [inDirectory?, target?_firstExisting, List.findSome?_map, foundIn?]
  have hsame : ∀ name ∈ fileNames, v.find (dir.join name) = (v.seenFrom d).find ⟨name⟩ := by
    intro name hname
    have hsize := Path.utf8ByteSize_join_le dir name
    have hname13 := hsizes name hname
    rw [h.find_join (isName_of_mem_fileNames name hname), if_neg]
    unfold HasRoom at hroom
    omega
  generalize fileNames = names at hsame
  induction names with
  | nil => rfl
  | cons name rest ih =>
    rw [List.findSome?_cons, List.findSome?_cons, Function.comp, hsame name List.mem_cons_self,
      ih fun other hother => hsame other (List.mem_cons_of_mem _ hother)]

theorem utf8ByteSize_le_of_mem_climb {fuel : Nat} (h : dir ∈ climb fuel p) :
    dir.text.utf8ByteSize ≤ p.text.utf8ByteSize := by
  induction fuel generalizing p with
  | zero => cases h
  | succ fuel ih =>
    rw [climb] at h
    rcases List.mem_cons.mp h with rfl | h
    · exact le_refl _
    · cases hparent : p.parent? with
      | none => simp [hparent] at h
      | some q =>
        rw [hparent] at h
        refine le_trans (ih h) ?_
        by_cases hnames : p.names = []
        · rw [Path.parent?_of_nameless hnames] at hparent
          split at hparent
          · obtain rfl := Option.some.inj hparent
            simp
          · cases hparent
        · obtain ⟨q', hq', -, -, s, hs⟩ := Path.exists_parent? hnames
          obtain rfl := Option.some.inj (hparent.symm.trans hq')
          rw [hs, String.utf8ByteSize_append]
          omega

theorem findSome?_target? {dirs : List Path} {ds : List (List String)}
    (h : List.Forall₂ v.LeadsTo dirs ds) (hroom : ∀ dir ∈ dirs, HasRoom dir) :
    (dirs.findSome? fun dir => target? v (inDirectory? v dir)) = ds.findSome? (foundIn? v) := by
  induction h with
  | nil => rfl
  | cons hdir _ ih =>
    rw [List.findSome?_cons, List.findSome?_cons,
      target?_inDirectory? hdir (hroom _ List.mem_cons_self),
      ih fun dir hmem => hroom dir (List.mem_cons_of_mem _ hmem)]

/-! ### Places -/

/-- A place and those around it, the innermost first. -/
def around (place : List String) : List (List String) :=
  place.inits.reverse

/-- The places around another, the innermost first. -/
def above (place : List String) : List (List String) :=
  place.inits.dropLast.reverse

theorem inits_eq_dropLast_concat (place : List String) :
    place.inits = place.inits.dropLast ++ [place] := by
  induction place using List.reverseRecOn with
  | nil => rfl
  | append_singleton init last _ => simp [List.inits_append]

/-- Around the place that a path names are those up to where it starts, and those above that. -/
theorem around_eq (h : place = v.base p ++ p.names) :
    around place = within v p ++ above (v.base p) := by
  rw [around, within, above, h, List.inits_append, List.reverse_append]
  conv_lhs => rw [inits_eq_dropLast_concat (v.base p)]
  obtain ⟨rest, hrest⟩ : ∃ rest, p.names.inits = [] :: rest := by
    cases p.names with
    | nil => exact ⟨[], rfl⟩
    | cons name names => exact ⟨_, List.inits_cons name names⟩
  simp [hrest]

theorem findSome?_places (v : FileView) (p : Path) :
    (places v p).findSome? (foundIn? v) = (within v p).findSome? (foundIn? v) := by
  rw [places, List.findSome?_append]
  split
  · next hhead =>
    have hhere : v.here ∈ within v p := by
      rw [within, FileView.base_of_current hhead]
      exact List.mem_map.mpr ⟨[], by simp, by simp⟩
    cases hfound : (within v p).findSome? (foundIn? v) with
    | some => simp
    | none => simp [List.findSome?_eq_none_iff.mp hfound v.here hhere]
  · simp

/-! ### The whole search -/

variable {e : Environment}

theorem find?_eq (h : e.files.LeadsTo start place) :
    find? e start =
      (firstOnTrail e.files (directories start) (places e.files start)).or
        (e.home.bind (inDirectory? e.files)) := by
  rw [find?, List.findSome?_append, findSome?_inDirectory? (directories_leadsTo h)]
  cases e.home with
  | none => rfl
  | some home => simp

theorem target?_find? (h : e.files.LeadsTo start place) (hroom : HasRoom start) :
    target? e.files (find? e start) =
      ((within e.files start).findSome? (foundIn? e.files)).or (foundAtHome? e) := by
  have hrooms : ∀ dir ∈ directories start, HasRoom dir := fun dir hdir =>
    lt_of_le_of_lt (Nat.add_le_add_right (utf8ByteSize_le_of_mem_climb hdir) 14) hroom
  rw [find?, target?_findSome?, List.findSome?_append, findSome?_target? (directories_leadsTo h) hrooms,
    findSome?_places, foundAtHome?]
  cases e.home with
  | none => rfl
  | some home => simp

theorem isSome_target?_find? (e : Environment) (start : Path) :
    (target? e.files (find? e start)).isSome = (find? e start).isSome := by
  cases h : find? e start with
  | none => rfl
  | some path =>
    obtain ⟨dir, -, hdir⟩ := List.exists_of_findSome?_eq_some h
    exact isSome_target? hdir

/-- What a search that climbs to the root leads to. -/
def upToRoot? (e : Environment) (place : List String) : Option (List String × Node) :=
  ((around place).findSome? (foundIn? e.files)).or (foundAtHome? e)

theorem upToRoot?_eq (h : place = e.files.base p ++ p.names) :
    upToRoot? e place =
      ((within e.files p).findSome? (foundIn? e.files)).or
        (((above (e.files.base p)).findSome? (foundIn? e.files)).or (foundAtHome? e)) := by
  rw [upToRoot?, around_eq h, List.findSome?_append, Option.or_assoc]

/-- What the search misses by climbing no further than to where the path starts is nothing, or what it
finds at home all the same. -/
def ReachesAll (e : Environment) (p : Path) : Prop :=
  ((within e.files p).findSome? (foundIn? e.files)).isSome ∨
    ((above (e.files.base p)).findSome? (foundIn? e.files)).or (foundAtHome? e) = foundAtHome? e

theorem reachesAll_of_isAbsolute (h : p.isAbsolute = true) : ReachesAll e p := by
  have hbase : e.files.base p = [] := by simp [FileView.base, h]
  refine .inr ?_
  rw [hbase]
  rfl

theorem target?_eq_upToRoot?_iff (h : e.files.LeadsTo start place) (hroom : HasRoom start) :
    target? e.files (find? e start) = upToRoot? e place ↔ ReachesAll e start := by
  rw [target?_find? h hroom, upToRoot?_eq h.place_eq, ReachesAll]
  cases (within e.files start).findSome? (foundIn? e.files) with
  | none => simp [eq_comm]
  | some => simp

/-- Two spellings of a place that start at the same place, or both reach all, find the same. -/
theorem target?_find?_congr {other : Path} (h : e.files.LeadsTo start place)
    (hother : e.files.LeadsTo other place) (hroom : HasRoom start) (hroom' : HasRoom other)
    (hsame : e.files.base start = e.files.base other ∨ ReachesAll e start ∧ ReachesAll e other) :
    target? e.files (find? e start) = target? e.files (find? e other) := by
  rcases hsame with hbase | ⟨hall, hall'⟩
  · have hnames : start.names = other.names := by
      have hplace := h.place_eq.symm.trans hother.place_eq
      rw [hbase] at hplace
      exact List.append_cancel_left hplace
    rw [target?_find? h hroom, target?_find? hother hroom', within, within, hbase, hnames]
  · rw [(target?_eq_upToRoot?_iff h hroom).mpr hall, (target?_eq_upToRoot?_iff hother hroom').mpr hall']

end ConfigSearch

namespace Config

open ConfigSearch

variable {e : Environment} {a : Arguments} {start : Path} {place : List String}

theorem file?_eq_find? (hsearch : a.noConfig = false) (hfile : a.configFile = none)
    (hstart : a.inputs.head?.getD e.files.currentPath = start) :
    file? e a = .ok (find? e start) := by
  simp [file?, hsearch, hfile, hstart]

theorem readText_congr {v : FileView} {p q : Path} (h : v.find p = v.find q) :
    v.readText p = v.readText q := by
  rw [FileView.readText, FileView.readText, FileView.read, FileView.read, h]

/-- A configuration that could be loaded does not tell by which path its file was found. -/
theorem load_congr_of_find {p q : Path} {inputs : List Path} (hfile : file? e a = .ok (some p))
    (hfile' : file? e { a with inputs := inputs } = .ok (some q))
    (hfind : e.files.find p = e.files.find q) :
    (load e a).toOption = (load e { a with inputs := inputs }).toOption := by
  simp only [load, hfile, hfile', bind, Except.bind, FileConfig.load, readText_congr hfind]
  cases e.files.readText q with
  | error => rfl
  | ok text =>
    cases hparse : FileConfig.parse? text with
    | none =>
      simp only [hparse]
      rfl
    | some f =>
      simp only [hparse]
      change Except.toOption (withFile a f p) = Except.toOption (withFile a f q)
      rw [withFile, withFile]
      cases (ofArguments a).merge a f <;> rfl

theorem load_congr {inputs : List Path} {other : Path} (hfile : file? e a = .ok (find? e start))
    (hfile' : file? e { a with inputs := inputs } = .ok (find? e other))
    (htarget : target? e.files (find? e start) = target? e.files (find? e other)) :
    (load e a).toOption = (load e { a with inputs := inputs }).toOption := by
  have hsome := isSome_target?_find? e start
  have hsome' := isSome_target?_find? e other
  rw [← htarget, hsome] at hsome'
  cases hp : find? e start with
  | none =>
    have hq : find? e other = none := by simpa [hp] using hsome'.symm
    rw [hp] at hfile
    rw [hq] at hfile'
    simp only [load, hfile, hfile']
    rfl
  | some p =>
    obtain ⟨q, hq⟩ := Option.isSome_iff_exists.mp (hsome'.symm.trans (by simp [hp]))
    rw [hp] at hfile htarget hsome
    rw [hq] at hfile' htarget
    refine load_congr_of_find hfile hfile' ?_
    obtain ⟨t, ht⟩ := Option.isSome_iff_exists.mp hsome
    have hfind : (e.files.find p).toOption = some t := ht
    have hfind' : (e.files.find q).toOption = some t := htarget.symm.trans ht
    rw [FileView.find_eq_of_toOption hfind, FileView.find_eq_of_toOption hfind']

/-- With no file named and the search not turned off, the configuration comes from the first file that
exists in the directories up from the start, and from one at home only after them. From an absolute
path they go up to the root. A relative path leads to the same file exactly if there is one up to the
current directory, or none above it that home does not have; then it does not matter how a directory
is spelled. -/
theorem search_climbs (e : Environment) (a : Arguments) (start : Path) (place : List String)
    (hsearch : a.noConfig = false) (hnamed : a.configFile = none)
    (hstart : a.inputs.head?.getD e.files.currentPath = start) (hspells : e.files.Spells start place) :
    List.Forall₂ e.files.LeadsTo (directories start) (places e.files start) ∧
    file? e a = .ok ((firstOnTrail e.files (directories start) (places e.files start)).or
      (e.home.bind (inDirectory? e.files))) ∧
    (HasRoom start → ∃ picked, file? e a = .ok picked ∧
      target? e.files picked =
        ((within e.files start).findSome? (foundIn? e.files)).or (foundAtHome? e) ∧
      (target? e.files picked = upToRoot? e place ↔ ReachesAll e start) ∧
      (start.isAbsolute = true → target? e.files picked = upToRoot? e place)) ∧
    ∀ other inputs, e.files.Spells other place → HasRoom start → HasRoom other →
      (e.files.base start = e.files.base other ∨ ReachesAll e start ∧ ReachesAll e other) →
      (load e a).toOption = (load e { a with inputs := other :: inputs }).toOption := by
  have hleads := hspells.leadsTo
  have hfile := file?_eq_find? hsearch hnamed hstart
  refine ⟨directories_leadsTo hleads, ?_, fun hroom => ?_,
    fun other inputs hother hroom hroom' hsame => ?_⟩
  · rw [hfile, find?_eq hleads]
  · have hiff := target?_eq_upToRoot?_iff hleads hroom
    exact ⟨_, hfile, target?_find? hleads hroom, hiff, fun habs =>
      hiff.mpr (reachesAll_of_isAbsolute habs)⟩
  · have hfile' : file? e { a with inputs := other :: inputs } = .ok (find? e other) :=
      file?_eq_find? hsearch hnamed rfl
    exact load_congr hfile hfile'
      (target?_find?_congr hleads hother.leadsTo hroom hroom' hsame)

/-! ### A directory below a configuration file -/

/-- A directory beside a configuration file, seen from inside. -/
def nested (inner : List (String × Node)) : Environment where
  files := ⟨.directory [(".makelrc", .file (Bytes.ofString "max_line_length = 64\n")),
    ("sub", .directory inner)], ["sub"]⟩
  home := none

theorem foundIn?_nested (inner : List (String × Node)) :
    foundIn? (nested inner).files [] =
      some ([".makelrc"], .file (Bytes.ofString "max_line_length = 64\n")) := by
  rw [foundIn?_eq rfl (by simp [fileNames, List.lookup_cons])]
  simp [fileNames]

theorem search_climbs_beside :
    let e := nested [(".makelrc", .file []), ("deep", .directory [])]
    let a : Arguments := { inputs := [⟨"deep"⟩], recursive := true }
    e.files.Spells ⟨"deep"⟩ ["sub", "deep"] ∧ e.files.Spells ⟨"/sub/deep"⟩ ["sub", "deep"] ∧
      (load e a).toOption = (load e { a with inputs := [⟨"/sub/deep"⟩] }).toOption := by
  intro e a
  have hrelative : e.files.Spells ⟨"deep"⟩ ["sub", "deep"] :=
    FileView.LeadsTo.spells ⟨by decide +kernel, by decide +kernel, _, rfl⟩ (by decide) (by decide)
  have habsolute : e.files.Spells ⟨"/sub/deep"⟩ ["sub", "deep"] :=
    FileView.LeadsTo.spells ⟨by decide +kernel, by decide +kernel, _, rfl⟩ (by decide) (by decide)
  have hwithin : within e.files ⟨"deep"⟩ = [["sub", "deep"], ["sub"]] := by decide +kernel
  have hfound : ReachesAll e ⟨"deep"⟩ := by
    refine .inl ?_
    have hbeside : foundIn? e.files ["sub"] = some (["sub", ".makelrc"], .file []) := by
      rw [foundIn?_eq rfl (by simp [fileNames, List.lookup_cons])]
      simp [fileNames]
    rw [hwithin, List.findSome?_cons]
    split
    · rfl
    · simp [hbeside]
  have hclimbs := search_climbs e a ⟨"deep"⟩ _ rfl rfl rfl hrelative
  exact ⟨hrelative, habsolute, hclimbs.2.2.2 ⟨"/sub/deep"⟩ [] habsolute (by decide) (by decide)
    (.inr ⟨hfound, reachesAll_of_isAbsolute (by decide)⟩)⟩

theorem search_stops_short :
    let e := nested []
    ∃ a, Arguments.parse ["-r", "."] = .ok a ∧
      e.files.Spells ⟨"."⟩ ["sub"] ∧ e.files.Spells ⟨"/sub"⟩ ["sub"] ∧
      upToRoot? e ["sub"] =
        some ([".makelrc"], .file (Bytes.ofString "max_line_length = 64\n")) ∧
      file? e a = .ok none ∧ ∃ path, file? e { a with inputs := [⟨"/sub"⟩] } = .ok (some path) := by
  intro e
  let a : Arguments := { inputs := [⟨"."⟩], recursive := true }
  have hrelative : e.files.LeadsTo ⟨"."⟩ ["sub"] := ⟨by decide +kernel, by decide +kernel, _, rfl⟩
  have habsolute : e.files.LeadsTo ⟨"/sub"⟩ ["sub"] := ⟨by decide +kernel, by decide +kernel, _, rfl⟩
  have hinside : foundIn? e.files ["sub"] = none := by
    rw [foundIn?_eq rfl (by simp)]
    simp [fileNames]
  have hupToRoot : upToRoot? e ["sub"] =
      some ([".makelrc"], .file (Bytes.ofString "max_line_length = 64\n")) := by
    simp [upToRoot?, around, List.inits, hinside, e, foundIn?_nested]
  have hnone : find? e ⟨"."⟩ = none := by
    have hwithin : within e.files ⟨"."⟩ = [["sub"]] := by decide +kernel
    have htarget : target? e.files (find? e ⟨"."⟩) = none := by
      rw [target?_find? hrelative (by decide), hwithin, List.findSome?_cons, hinside]
      rfl
    rw [← Option.not_isSome_iff_eq_none, ← isSome_target?_find?, htarget]
    simp
  have hsome : (find? e ⟨"/sub"⟩).isSome := by
    have htarget := (target?_eq_upToRoot?_iff habsolute (by decide)).mpr
      (reachesAll_of_isAbsolute (by decide))
    rw [← isSome_target?_find?, htarget, hupToRoot]
    rfl
  obtain ⟨path, hpath⟩ := Option.isSome_iff_exists.mp hsome
  refine ⟨a, rfl, hrelative.spells (by decide) (by decide), habsolute.spells (by decide) (by decide),
    hupToRoot, ?_, path, ?_⟩
  · rw [file?_eq_find? rfl rfl rfl]
    exact congrArg Except.ok hnone
  · rw [file?_eq_find? rfl rfl rfl]
    exact congrArg Except.ok hpath

end Config

end MakeLint
