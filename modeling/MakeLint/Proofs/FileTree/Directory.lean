import MakeLint.Proofs.Path
/-!
# Paths through directories

A path that names directories one in the other, with no link and no two dots on the way, leads to the
place that its names spell, from the root or from the current directory. An entry of that directory is
found under the path joined with its name as it is found under the name alone from inside the
directory, as long as the joined path is not too long. The parents of such a path lead so too.
-/

namespace MakeLint

namespace Node

theorem exists_directory_of_get?_append {n : Node} {place below : List String}
    {es : List (String × Node)} (h : n.get? (place ++ below) = some (.directory es)) :
    ∃ ds, n.get? place = some (.directory ds) := by
  rw [get?_append] at h
  obtain ⟨m, hm, hbelow⟩ := Option.bind_eq_some_iff.mp h
  cases below with
  | nil => exact ⟨es, by rw [hm, ← hbelow, get?]⟩
  | cons name rest =>
    rw [get?] at hbelow
    obtain ⟨child, hchild, -⟩ := Option.bind_eq_some_iff.mp hbelow
    have hdir := isDirectory_of_child? hchild
    cases m with
    | directory ds => exact ⟨ds, hm⟩
    | file | locked | device | link => cases hdir

theorem lookup_of_get? {n child : Node} {place : List String} {name : String}
    {es : List (String × Node)} (hdir : n.get? place = some (.directory es))
    (h : n.get? (place ++ [name]) = some child) : es.lookup name = some child := by
  rw [get?_append, hdir] at h
  simpa [get?, child?, entries] using h

end Node

namespace FileView

variable {v : FileView} {root node : Node} {links : Nat} {place q : List String}
  {part : String} {rest parts : List String} {es : List (String × Node)}

/-! ### One step -/

theorem follow_nil (h : root.get? place = some node) :
    follow root links place [] = .ok (.found place node) := by
  rw [follow.eq_def, h]

theorem follow_filler (hdir : root.get? place = some (.directory es))
    (hfiller : Path.isFiller part = true) :
    follow root links place (part :: rest) = follow root links place rest := by
  rw [follow.eq_def, hdir]
  simp [Node.isDirectory, hfiller]

theorem follow_tooLong (hdir : root.get? place = some (.directory es))
    (hfiller : Path.isFiller part = false) (hdots : part ≠ "..") (hlong : isTooLong part = true) :
    follow root links place (part :: rest) = slashedBy rest (.error .nameTooLong) := by
  rw [follow.eq_def, hdir]
  simp [Node.isDirectory, hfiller, hdots, hlong]

theorem follow_directory {ds : List (String × Node)}
    (hdir : root.get? place = some (.directory es)) (hfiller : Path.isFiller part = false)
    (hdots : part ≠ "..") (hshort : isTooLong part = false)
    (hchild : root.get? (place ++ [part]) = some (.directory ds)) :
    follow root links place (part :: rest) = follow root links (place ++ [part]) rest := by
  have hlookup := Node.lookup_of_get? hdir hchild
  rw [follow.eq_def, hdir]
  simp [Node.isDirectory, hfiller, hdots, hshort, Node.child?, Node.entries, hlookup]

theorem slashedBy_found {r : Except IoError Target} (h : slashedBy rest r = .ok (.found q node)) :
    r = .ok (.found q node) := by
  cases r with
  | ok => exact h
  | error cause =>
    rw [slashedBy] at h
    split at h <;> cases h

/-- What a path leads to is what stands at that place. -/
theorem get?_of_follow (h : follow root links place parts = .ok (.found q node)) :
    root.get? q = some node := by
  fun_induction follow root links place parts with
  | case1 => cases h
  | case2 links place found hget =>
    obtain ⟨rfl, rfl⟩ : place = q ∧ found = node := by simpa using h
    exact hget
  | case3 => exact absurd (slashedBy_found h) (by simp)
  | case4 _ _ _ _ _ _ _ _ ih => exact ih h
  | case5 _ _ _ _ _ _ _ ih => exact ih h
  | case6 => exact absurd (slashedBy_found h) (by simp)
  | case7 => simp at h
  | case8 => exact absurd (slashedBy_found h) (by simp)
  | case9 => exact absurd (slashedBy_found h) (by simp)
  | case10 _ _ _ _ _ _ _ _ _ _ _ _ ih => exact ih (slashedBy_found h)
  | case11 _ _ _ _ _ _ _ _ _ _ _ _ _ _ ih => exact ih h

/-! ### Names of directories -/

/-- Pieces that name directories from a place lead to where their names do. -/
theorem follow_append {before : List String}
    (hdir : root.get? (place ++ before.filter (!Path.isFiller ·)) = some (.directory es))
    (hnames : ∀ name ∈ before.filter (!Path.isFiller ·), name ≠ ".." ∧ isTooLong name = false) :
    follow root links place (before ++ rest) =
      follow root links (place ++ before.filter (!Path.isFiller ·)) rest := by
  induction before generalizing place with
  | nil => simp
  | cons part before ih =>
    obtain ⟨ds, hplace⟩ := Node.exists_directory_of_get?_append hdir
    by_cases hfiller : Path.isFiller part = true
    · rw [List.filter_cons_of_neg (by simp [hfiller])] at hdir hnames ⊢
      rw [List.cons_append, follow_filler hplace hfiller]
      exact ih hdir hnames
    · rw [Bool.not_eq_true] at hfiller
      rw [List.filter_cons_of_pos (by simp [hfiller])] at hdir hnames ⊢
      rw [List.append_cons] at hdir ⊢
      obtain ⟨cs, hchild⟩ := Node.exists_directory_of_get?_append hdir
      obtain ⟨hdots, hshort⟩ := hnames part List.mem_cons_self
      rw [List.cons_append, follow_directory hplace hfiller hdots hshort hchild]
      exact ih hdir fun name hname => hnames name (List.mem_cons_of_mem _ hname)

/-- The names of directories that a path leads through are not too long. -/
theorem isTooLong_of_follow
    (hfound : follow root links place parts = .ok (.found q node))
    (hdir : root.get? (place ++ parts.filter (!Path.isFiller ·)) = some (.directory es))
    (hdots : ".." ∉ parts.filter (!Path.isFiller ·)) :
    ∀ name ∈ parts.filter (!Path.isFiller ·), isTooLong name = false := by
  induction parts generalizing place with
  | nil => simp
  | cons part parts ih =>
    obtain ⟨ds, hplace⟩ := Node.exists_directory_of_get?_append hdir
    by_cases hfiller : Path.isFiller part = true
    · rw [List.filter_cons_of_neg (by simp [hfiller])] at hdir hdots ⊢
      rw [follow_filler hplace hfiller] at hfound
      exact ih hfound hdir hdots
    · rw [Bool.not_eq_true] at hfiller
      rw [List.filter_cons_of_pos (by simp [hfiller])] at hdir hdots ⊢
      rw [List.append_cons] at hdir
      obtain ⟨cs, hchild⟩ := Node.exists_directory_of_get?_append hdir
      have hpart : part ≠ ".." := fun heq => hdots (by simp [heq])
      have hshort : isTooLong part = false := by
        by_contra hlong
        rw [Bool.not_eq_false] at hlong
        rw [follow_tooLong hplace hfiller hpart hlong] at hfound
        exact absurd (slashedBy_found hfound) (by simp)
      rw [follow_directory hplace hfiller hpart hshort hchild] at hfound
      intro name hname
      rcases List.mem_cons.mp hname with rfl | hname
      · exact hshort
      · exact ih hfound hdir (fun h => hdots (List.mem_cons_of_mem _ h)) name hname

/-! ### Paths to directories -/

/-- Where a path starts. -/
def base (v : FileView) (p : Path) : List String :=
  if p.isAbsolute then [] else v.here

/-- The same tree seen from another place. -/
def seenFrom (v : FileView) (place : List String) : FileView :=
  { v with here := place }

/-- A path that leads through the directories it names to the one at a place. -/
structure LeadsTo (v : FileView) (p : Path) (place : List String) : Prop where
  place_eq : place = v.base p ++ p.names
  isName : ∀ name ∈ p.names, Path.IsName name
  isDirectory : ∃ es, v.root.get? place = some (.directory es)

variable {p : Path}

/-- A path that leads somewhere is followed from its start. -/
theorem follow_of_find (h : v.find p = .ok (q, node)) :
    '\x00' ∉ p.text.toList ∧ follow v.root 40 (v.base p) p.parts = .ok (.found q node) := by
  have htarget : v.target p = .ok (.found q node) := by
    rw [find] at h
    split at h
    · next hfound =>
      obtain ⟨rfl, rfl⟩ := Prod.mk.inj (Except.ok.inj h)
      exact hfound
    · cases h
    · cases h
    · cases h
  unfold target at htarget
  split at htarget
  · cases htarget
  next hnul =>
  split at htarget
  · cases htarget
  split at htarget
  · cases htarget
  exact ⟨by simpa using hnul, htarget⟩

/-- A path that spells the place of a directory: it leads to the place that its names spell, so that
it meets no link, and two dots are not among them. -/
structure Spells (v : FileView) (p : Path) (place : List String) : Prop where
  find : ∃ es, v.find p = .ok (place, .directory es)
  place_eq : place = v.base p ++ p.names
  noDots : ".." ∉ p.names

theorem Spells.leadsTo (h : v.Spells p place) : v.LeadsTo p place := by
  obtain ⟨⟨es, hfind⟩, rfl, hdots⟩ := h
  obtain ⟨hnul, hfollow⟩ := follow_of_find hfind
  have hget := get?_of_follow hfollow
  have hshort := isTooLong_of_follow hfollow hget hdots
  refine ⟨rfl, ?_, es, hget⟩
  intro name hname
  obtain ⟨hpart, hfiller⟩ := List.mem_filter.mp hname
  have hempty : name ≠ "" ∧ name ≠ "." := by
    simpa [Path.isFiller] using hfiller
  have hsize : name.utf8ByteSize ≤ 255 := by
    simpa [isTooLong] using hshort name hname
  exact ⟨Path.not_slash_mem hpart, fun hmem => hnul (Path.mem_of_mem_part hpart hmem).2, hempty.1,
    hempty.2, fun heq => hdots (heq ▸ hname), hsize⟩

theorem base_congr {p' : Path} (h : p'.head? = p.head?) : v.base p' = v.base p := by
  have habs : p'.isAbsolute = p.isAbsolute := by
    rw [Bool.eq_iff_iff, Path.isAbsolute_iff_head?, Path.isAbsolute_iff_head?, h]
  rw [base, base, habs]

theorem base_of_current (h : p.head? = some .current) : v.base p = v.here := by
  simp [base, Path.isAbsolute_of_head?_current h]

/-- The parent of a path that leads to a directory leads to the directory around it. -/
theorem LeadsTo.parent (h : v.LeadsTo p place) {p' : Path} (hparent : p'.IsParent p)
    (hne : p.names ≠ []) : v.LeadsTo p' place.dropLast := by
  obtain ⟨hplace, hname, es, hdir⟩ := h
  refine ⟨?_, fun name hmem => ?_, ?_⟩
  · rw [base_congr hparent.head?, hparent.names, hplace, List.dropLast_append_of_ne_nil hne]
  · exact hname name (List.dropLast_subset _ (hparent.names ▸ hmem))
  · have hne' : place ≠ [] := by simp [hplace, hne]
    rw [← List.dropLast_append_getLast hne'] at hdir
    exact Node.exists_directory_of_get?_append hdir

/-- The empty path leads to the current directory. -/
theorem leadsTo_empty (h : v.root.get? v.here = some (.directory es)) : v.LeadsTo ⟨""⟩ v.here := by
  have hnames : (Path.mk "").names = [] := by decide
  refine ⟨?_, ?_, es, h⟩
  · rw [hnames, List.append_nil]
    rfl
  · simp [hnames]

theorem LeadsTo.follow_append (h : v.LeadsTo p place) {before : List String}
    (hbefore : before.filter (!Path.isFiller ·) = p.names) :
    follow v.root links (v.base p) (before ++ rest) = follow v.root links place rest := by
  obtain ⟨hplace, hnames, es, hdir⟩ := h
  have hdirs : v.root.get? (v.base p ++ before.filter (!Path.isFiller ·)) = some (.directory es) := by
    rw [hbefore, ← hplace, hdir]
  have hplain : ∀ name ∈ before.filter (!Path.isFiller ·), name ≠ ".." ∧ isTooLong name = false := by
    intro name hname
    rw [hbefore] at hname
    obtain ⟨-, -, -, -, hdots, hsize⟩ := hnames name hname
    exact ⟨hdots, by simpa [isTooLong] using hsize⟩
  rw [FileView.follow_append hdirs hplain, hbefore, ← hplace]

/-- A path that is not empty and not too long spells the place that it leads to. -/
theorem LeadsTo.spells (h : v.LeadsTo p place) (hempty : p.text ≠ "")
    (hsize : p.text.utf8ByteSize < 4096) : v.Spells p place := by
  obtain ⟨es, hdir⟩ := h.isDirectory
  have hnul : '\x00' ∉ p.text.toList := Path.not_nul_mem fun name hname => (h.isName name hname).2.1
  have hfollow : follow v.root 40 (v.base p) p.parts = .ok (.found place (.directory es)) := by
    rw [← List.append_nil p.parts, h.follow_append rfl, follow_nil hdir]
  have htarget : v.target p = .ok (.found place (.directory es)) := by
    rw [target, if_neg (by simpa using hnul), if_neg hempty, if_neg (by omega)]
    exact hfollow
  refine ⟨⟨es, ?_⟩, h.place_eq, fun hdots => ?_⟩
  · rw [find, htarget]
  · exact (h.isName ".." hdots).2.2.2.2.1 rfl

/-- Under a path that leads to a directory, its entries are found as from inside it. -/
theorem LeadsTo.find_join (h : v.LeadsTo p place) {name : String} (hname : Path.IsName name) :
    v.find (p.join name) =
      if 4096 ≤ (p.join name).text.utf8ByteSize then .error .nameTooLong
      else (v.seenFrom place).find ⟨name⟩ := by
  obtain ⟨before, hparts, hbefore, habs⟩ := Path.parts_join p hname
  have hjoin := Path.names_join p hname
  have hnul : '\x00' ∉ (p.join name).text.toList := by
    apply Path.not_nul_mem
    intro other hother
    rw [hjoin] at hother
    rcases List.mem_append.mp hother with hother | hother
    · exact (h.isName other hother).2.1
    · rw [List.mem_singleton.mp hother]
      exact hname.2.1
  have hempty : (p.join name).text ≠ "" := by
    intro hempty
    have hnone : (p.join name).names = [] := by
      rw [show p.join name = ⟨""⟩ from by cases hq : p.join name; simp_all]
      decide
    simp [hjoin] at hnone
  have hfollow : follow v.root 40 (v.base (p.join name)) (p.join name).parts =
      follow v.root 40 place [name] := by
    have hbase : v.base (p.join name) = v.base p := by rw [base, base, habs]
    rw [hbase, hparts, h.follow_append hbefore]
  have htarget : v.target (p.join name) =
      if 4096 ≤ (p.join name).text.utf8ByteSize then .error .nameTooLong
      else (v.seenFrom place).target ⟨name⟩ := by
    rw [target_of_isName hname, target, if_neg (by simpa using hnul), if_neg hempty]
    split
    · rfl
    · exact hfollow
  by_cases hlong : 4096 ≤ (p.join name).text.utf8ByteSize
  · rw [if_pos hlong] at htarget ⊢
    rw [find, htarget]
  · rw [if_neg hlong] at htarget ⊢
    rw [find, htarget, find]

/-! ### Entries that are no links -/

/-- A name that is no entry of the directory is not found. -/
theorem find_of_no_entry {name : String} (h : Path.IsName name)
    (hdir : v.root.get? v.here = some (.directory es)) (hnone : es.lookup name = none) :
    v.find ⟨name⟩ = .error .notFound := by
  have hfiller := Path.not_isFiller_of_isName h
  obtain ⟨-, -, -, -, hdots, hsize⟩ := id h
  have hfollow : follow v.root 40 v.here [name] = .ok (.missing (v.here ++ [name])) := by
    rw [follow.eq_def, hdir]
    have hlong : ¬ 255 < name.utf8ByteSize := by omega
    simp [Node.isDirectory, hfiller, hdots, isTooLong, hlong, Node.child?, Node.entries, hnone]
  rw [find, target_of_isName h, hfollow]

theorem find_eq_of_toOption {t : List String × Node} (h : (v.find p).toOption = some t) :
    v.find p = .ok t := by
  cases hfind : v.find p with
  | error => simp [hfind, Except.toOption] at h
  | ok found =>
    rw [hfind] at h
    exact congrArg Except.ok (Option.some.inj h)

theorem toOption_find_of_isName {name : String} (h : Path.IsName name)
    (hdir : v.root.get? v.here = some (.directory es))
    (hlink : ∀ target, es.lookup name ≠ some (.link target)) :
    (v.find ⟨name⟩).toOption = (es.lookup name).map fun entry => (v.here ++ [name], entry) := by
  cases hentry : es.lookup name with
  | none =>
    rw [find_of_no_entry h hdir hentry]
    rfl
  | some entry =>
    rw [find_of_isName h hdir hentry fun target heq => hlink target (heq ▸ hentry)]
    rfl

end FileView

end MakeLint
