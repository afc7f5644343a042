import Mathlib.Data.List.DropRight
import MakeLint.Proofs.FileTree
/-!
# The parts of a path

A path is known by its head, which says whether it starts at the root or is written from the current
directory, and by the names that its pieces make; the fillers between them change nothing. The parent
of a path loses the last name and keeps the head, and a path joined with a name gains it. What is said
here of parents and joins is said in these terms, so that a proof need not look at the text.
-/

namespace MakeLint

namespace Text

variable {sep : Char}

theorem splitAll_eq_splitOn (sep : Char) (cs : List Char) : splitAll sep cs = cs.splitOn sep := by
  induction cs with
  | nil => rfl
  | cons c rest ih =>
    rw [splitAll, List.splitOn_cons_eq_if_modifyHead, ih]
    by_cases hc : c = sep
    · rw [if_pos hc, if_pos (by simpa using hc)]
    · rw [if_neg hc, if_neg (by simpa using hc)]
      cases hrest : rest.splitOn sep with
      | nil => exact absurd hrest (List.splitOn_ne_nil _ _)
      | cons => rfl

end Text

namespace Path

/-- The names that a path is made of, two dots among them. -/
def names (p : Path) : List String :=
  p.parts.filter (!isFiller ·)

/-- The component that a path begins with and that is no name. -/
def head? (p : Path) : Option Component :=
  p.splitHead.1.map (·.2)

variable {p q : Path} {part name : String} {parts : List String}

theorem isFiller_iff : isFiller part = true ↔ part = "" ∨ part = "." := by
  simp [isFiller]

/-! ### Text and pieces -/

theorem parts_ne_nil (p : Path) : p.parts ≠ [] := by
  rw [Path.parts, Text.splitAll_eq_splitOn]
  simp

theorem text_eq_intercalate (p : Path) : p.text = String.intercalate "/" p.parts := by
  apply String.toList_inj.mp
  rw [String.toList_intercalate, Path.parts, List.map_map]
  have hpieces : (Text.splitAll '/' p.text.toList).map (String.toList ∘ String.ofList) =
      p.text.toList.splitOn '/' := by
    rw [Text.splitAll_eq_splitOn]
    simp [Function.comp_def]
  rw [hpieces]
  exact (List.intercalate_splitOn '/').symm

theorem parts_ofParts (hne : parts ≠ []) (hslash : ∀ part ∈ parts, '/' ∉ part.toList) :
    (ofParts parts).parts = parts := by
  rw [ofParts, Path.parts, Text.splitAll_eq_splitOn]
  dsimp only
  have hsep : "/".toList = ['/'] := by decide
  rw [String.toList_intercalate, hsep, List.splitOn_intercalate '/' (by simpa using hslash)
    (by simpa using hne), List.map_map]
  simp [Function.comp_def]

/-- The characters of a piece are those of the text that are no separator. -/
theorem mem_of_mem_splitOn {c : Char} {cs piece : List Char} (h : piece ∈ cs.splitOn '/')
    (hc : c ∈ piece) : c ≠ '/' ∧ c ∈ cs := by
  induction cs generalizing piece with
  | nil =>
    rw [List.splitOn_nil, List.mem_singleton] at h
    exact absurd hc (by simp [h])
  | cons d rest ih =>
    have hrest : ∀ piece ∈ rest.splitOn '/', c ∈ piece → c ≠ '/' ∧ c ∈ d :: rest := fun _ hp hcp =>
      ⟨(ih hp hcp).1, List.mem_cons_of_mem _ (ih hp hcp).2⟩
    rw [List.splitOn_cons_eq_if_modifyHead] at h
    split at h
    · rcases List.mem_cons.mp h with rfl | h
      · cases hc
      · exact hrest piece h hc
    · next hd =>
      cases hsplit : rest.splitOn '/' with
      | nil => exact absurd hsplit (List.splitOn_ne_nil _ _)
      | cons first more =>
        rw [hsplit] at h hrest
        rcases List.mem_cons.mp h with rfl | h
        · rcases List.mem_cons.mp hc with rfl | hc
          · exact ⟨by simpa using hd, List.mem_cons_self⟩
          · exact hrest first List.mem_cons_self hc
        · exact hrest piece (List.mem_cons_of_mem _ h) hc

theorem mem_of_mem_part {c : Char} (h : part ∈ p.parts) (hc : c ∈ part.toList) :
    c ≠ '/' ∧ c ∈ p.text.toList := by
  rw [Path.parts, Text.splitAll_eq_splitOn] at h
  obtain ⟨piece, hpiece, rfl⟩ := List.mem_map.mp h
  exact mem_of_mem_splitOn hpiece (by simpa using hc)

theorem not_slash_mem (h : part ∈ p.parts) : '/' ∉ part.toList :=
  fun hc => (mem_of_mem_part h hc).1 rfl

theorem text_eq_append_of_prefix (h : parts <+: p.parts) :
    ∃ s, p.text = (ofParts parts).text ++ s := by
  obtain ⟨more, hmore⟩ := h
  rw [text_eq_intercalate p, ← hmore, ofParts]
  by_cases hparts : parts = []
  · exact ⟨String.intercalate "/" more, by simp [hparts]⟩
  by_cases hnone : more = []
  · exact ⟨"", by simp [hnone]⟩
  · rw [String.intercalate_append_of_ne_nil hparts hnone, String.append_assoc]
    exact ⟨_, rfl⟩

/-! ### Heads -/

theorem isAbsolute_iff : p.isAbsolute = true ↔ ∃ second rest, p.parts = "" :: second :: rest := by
  constructor
  · intro h
    rw [isAbsolute, decide_eq_true_eq] at h
    cases hcs : p.text.toList with
    | nil => simp [hcs] at h
    | cons c cs =>
      rw [hcs] at h
      obtain rfl : c = '/' := by simpa using h
      rw [Path.parts, hcs, Text.splitAll, if_pos rfl, List.map_cons, Text.splitAll_eq_splitOn]
      cases hrest : cs.splitOn '/' with
      | nil => exact absurd hrest (List.splitOn_ne_nil _ _)
      | cons second rest => exact ⟨_, _, rfl⟩
  · rintro ⟨second, rest, h⟩
    rw [isAbsolute, decide_eq_true_eq, text_eq_intercalate, h]
    simp [String.toList_intercalate]

/-- What the head of a path leaves: after a dot or at the root the other pieces, else all of them,
which then begin with a name unless there is no text. -/
theorem splitHead_cases (p : Path) :
    (∃ rest, p.parts = "." :: rest ∧ p.splitHead = (some (".", .current), rest)) ∨
    (∃ rest, p.parts = "" :: rest ∧ rest ≠ [] ∧ p.splitHead = (some ("", .root), rest)) ∨
    (p = ⟨""⟩ ∧ p.splitHead = (none, [])) ∨
    (∃ first rest, p.parts = first :: rest ∧ isFiller first = false ∧
      p.splitHead = (none, first :: rest)) := by
  cases hparts : p.parts with
  | nil => exact absurd hparts (parts_ne_nil p)
  | cons first rest =>
    by_cases hdot : first = "."
    · subst hdot
      exact .inl ⟨rest, rfl, by simp [splitHead, hparts]⟩
    by_cases hempty : first = ""
    · subst hempty
      cases rest with
      | nil =>
        have htext : p.text = "" := by rw [text_eq_intercalate, hparts, String.intercalate_singleton]
        have habs : p.isAbsolute = false := by simp [isAbsolute, htext]
        refine .inr (.inr (.inl ⟨?_, ?_⟩))
        · cases p
          exact congrArg Path.mk htext
        · rw [splitHead, hparts]
          simp [habs]
      | cons second more =>
        have habs := isAbsolute_iff.mpr ⟨second, more, hparts⟩
        refine .inr (.inl ⟨second :: more, rfl, by simp, ?_⟩)
        rw [splitHead, hparts]
        simp [habs]
    · refine .inr (.inr (.inr ⟨first, rest, rfl, by simp [isFiller, hdot, hempty], ?_⟩))
      rw [splitHead, hparts]
      split
      · next h => exact absurd (List.cons.inj h).1 hdot
      · next h => exact absurd (List.cons.inj h).1 hempty
      · rfl

theorem names_eq (p : Path) : p.names = p.splitHead.2.filter (!isFiller ·) := by
  rcases splitHead_cases p with ⟨rest, hparts, h⟩ | ⟨rest, hparts, -, h⟩ | ⟨rfl, h⟩ |
    ⟨first, rest, hparts, -, h⟩
  · rw [names, hparts, h, List.filter_cons_of_neg (by decide)]
  · rw [names, hparts, h, List.filter_cons_of_neg (by decide)]
  · rw [h]
    decide
  · rw [names, hparts, h]

theorem head?_of_dot {rest : List String} (h : p.parts = "." :: rest) :
    p.head? = some .current := by
  simp [head?, splitHead, h]

theorem head?_of_root {second : String} {rest : List String} (h : p.parts = "" :: second :: rest) :
    p.head? = some .root := by
  have habs := isAbsolute_iff.mpr ⟨second, rest, h⟩
  simp [head?, splitHead, h, habs]

theorem head?_of_name {first : String} {rest : List String} (h : p.parts = first :: rest)
    (hfirst : isFiller first = false) : p.head? = none := by
  rcases splitHead_cases p with ⟨_, hparts, -⟩ | ⟨_, hparts, -, -⟩ | ⟨-, hsplit⟩ |
    ⟨_, _, -, -, hsplit⟩
  · obtain rfl := (List.cons.inj (h.symm.trans hparts)).1
    exact absurd hfirst (by decide)
  · obtain rfl := (List.cons.inj (h.symm.trans hparts)).1
    exact absurd hfirst (by decide)
  · rw [head?, hsplit]
    rfl
  · rw [head?, hsplit]
    rfl

theorem isAbsolute_iff_head? : p.isAbsolute = true ↔ p.head? = some .root := by
  rw [isAbsolute_iff]
  rcases splitHead_cases p with ⟨rest, hparts, h⟩ | ⟨rest, hparts, hne, h⟩ | ⟨rfl, h⟩ |
    ⟨first, rest, hparts, hfirst, h⟩
  · simp [head?, h, hparts]
  · obtain ⟨second, more, rfl⟩ := List.exists_cons_of_ne_nil hne
    simp [head?, h, hparts]
  · rw [head?, h]
    simp [Path.parts, Text.splitAll]
  · rw [head?, h, hparts]
    suffices hne : first ≠ "" by simp [hne]
    rintro rfl
    exact absurd hfirst (by decide)

theorem isAbsolute_of_head?_current (h : p.head? = some .current) : p.isAbsolute = false := by
  rw [Bool.eq_false_iff, Ne, isAbsolute_iff_head?, h]
  simp

/-! ### Parents -/

theorem trimFiller_eq_rdropWhile (l : List String) : trimFiller l = l.rdropWhile isFiller :=
  rfl

theorem filter_trimFiller (l : List String) :
    (trimFiller l).filter (!isFiller ·) = l.filter (!isFiller ·) := by
  rw [trimFiller_eq_rdropWhile]
  induction l using List.reverseRecOn with
  | nil => rfl
  | append_singleton l part ih =>
    rw [List.rdropWhile_concat]
    split
    · next h => rw [ih, List.filter_append, List.filter_cons_of_neg (by simp [h])]; simp
    · rfl

theorem trimFiller_eq_nil_iff {l : List String} :
    trimFiller l = [] ↔ l.filter (!isFiller ·) = [] := by
  rw [trimFiller_eq_rdropWhile, List.rdropWhile_eq_nil_iff, List.filter_eq_nil_iff]
  simp

/-- What is left of pieces without the last that is no filler, and the fillers before and after it. -/
theorem filter_trimFiller_dropLast {l : List String} (h : trimFiller l ≠ []) :
    (trimFiller (trimFiller l).dropLast).filter (!isFiller ·) =
      (l.filter (!isFiller ·)).dropLast := by
  rw [filter_trimFiller, ← filter_trimFiller l]
  have hlast : isFiller ((trimFiller l).getLast h) = false := by
    exact Bool.eq_false_iff.mpr (List.rdropWhile_last_not isFiller l h)
  conv_rhs => rw [← List.dropLast_append_getLast h, List.filter_append,
    List.filter_cons_of_pos (by simp [hlast]), List.filter_nil, List.dropLast_concat]

theorem trimFiller_dropLast_prefix (l : List String) :
    trimFiller (trimFiller l).dropLast <+: l :=
  ((List.rdropWhile_prefix isFiller _).trans (List.dropLast_prefix _)).trans
    (List.rdropWhile_prefix isFiller l)

/-- The parent is made of the head and what is left of the pieces after it. -/
theorem parent?_eq (h : p.names ≠ []) :
    p.parent? =
      match trimFiller (trimFiller p.splitHead.2).dropLast, p.splitHead.1 with
      | [], some ("", _) => some ⟨"/"⟩
      | kept, first => some (ofParts ((first.map (·.1)).toList ++ kept)) := by
  have hbody : trimFiller p.splitHead.2 ≠ [] := by
    rwa [Ne, trimFiller_eq_nil_iff, ← names_eq]
  rw [parent?]
  dsimp only
  split
  · next hnil _ => exact absurd hnil hbody
  · next hnil _ => exact absurd hnil hbody
  · rfl

/-- A path is what another is without its last name. -/
structure IsParent (q p : Path) : Prop where
  head? : q.head? = p.head?
  names : q.names = p.names.dropLast
  text : ∃ s, p.text = q.text ++ s

theorem parts_ofParts_of_prefix (h : parts <+: p.parts) (hne : parts ≠ []) :
    (ofParts parts).parts = parts :=
  parts_ofParts hne fun _ hpart => not_slash_mem (h.subset hpart)

/-- The first pieces of a path make its parent if they have its head and its names but the last. -/
theorem isParent_ofParts (h : parts <+: p.parts) (hne : parts ≠ [])
    (hhead : (ofParts parts).head? = p.head?)
    (hnames : parts.filter (!isFiller ·) = p.names.dropLast) : (ofParts parts).IsParent p :=
  ⟨hhead, by rw [names, parts_ofParts_of_prefix h hne, hnames], text_eq_append_of_prefix h⟩

/-- A path with a name has a parent. -/
theorem exists_parent? (h : p.names ≠ []) : ∃ q, p.parent? = some q ∧ q.IsParent p := by
  have hparent := parent?_eq h
  have hkept : (trimFiller (trimFiller p.splitHead.2).dropLast).filter (!isFiller ·) =
      p.names.dropLast := by
    rw [names_eq p] at h ⊢
    exact filter_trimFiller_dropLast (by rwa [Ne, trimFiller_eq_nil_iff])
  have hprefix := trimFiller_dropLast_prefix p.splitHead.2
  generalize trimFiller (trimFiller p.splitHead.2).dropLast = kept at hparent hkept hprefix
  rcases splitHead_cases p with ⟨rest, hparts, hsplit⟩ | ⟨rest, hparts, hne, hsplit⟩ | ⟨rfl, -⟩ |
    ⟨first, rest, hparts, hfirst, hsplit⟩
  · rw [hsplit] at hparent hprefix
    have hall : "." :: kept <+: p.parts := by
      rw [hparts]
      exact (List.prefix_cons_inj _).mpr hprefix
    have hq := parts_ofParts_of_prefix hall (by simp)
    refine ⟨ofParts ("." :: kept), by rw [hparent]; simp, isParent_ofParts hall (by simp) ?_ ?_⟩
    · rw [head?_of_dot hq, head?_of_dot hparts]
    · rw [List.filter_cons_of_neg (by decide), hkept]
  · rw [hsplit] at hparent hprefix
    obtain ⟨second, more, rfl⟩ := List.exists_cons_of_ne_nil hne
    cases kept with
    | nil =>
      refine ⟨⟨"/"⟩, hparent, ?_, ?_, String.intercalate "/" (second :: more), ?_⟩
      · rw [head?_of_root hparts]
        decide
      · rw [← hkept]
        decide
      · rw [text_eq_intercalate, hparts, String.intercalate_cons_of_ne_nil (by simp),
          String.empty_append]
    | cons k ks =>
      have hall : "" :: k :: ks <+: p.parts := by
        rw [hparts]
        exact (List.prefix_cons_inj _).mpr hprefix
      have hq := parts_ofParts_of_prefix hall (by simp)
      refine ⟨ofParts ("" :: k :: ks), hparent, isParent_ofParts hall (by simp) ?_ ?_⟩
      · rw [head?_of_root hq, head?_of_root hparts]
      · rw [List.filter_cons_of_neg (by decide), hkept]
  · exact absurd (by decide) h
  · rw [hsplit] at hparent hprefix
    have hall : kept <+: p.parts := by
      rwa [hparts]
    cases kept with
    | nil =>
      refine ⟨⟨""⟩, hparent, ?_, ?_, text_eq_append_of_prefix hall⟩
      · rw [head?_of_name hparts hfirst]
        decide
      · rw [← hkept]
        decide
    | cons k ks =>
      have hq := parts_ofParts_of_prefix hall (by simp)
      obtain rfl : k = first := (List.cons_prefix_cons.mp hprefix).1
      refine ⟨ofParts (k :: ks), hparent, isParent_ofParts hall (by simp) ?_ hkept⟩
      rw [head?_of_name hq hfirst, head?_of_name hparts hfirst]

theorem parent?_of_nameless (h : p.names = []) :
    p.parent? = if p.head? = some .current then some ⟨""⟩ else none := by
  have hbody : trimFiller p.splitHead.2 = [] := by
    rwa [trimFiller_eq_nil_iff, ← names_eq]
  rw [parent?]
  dsimp only
  rw [hbody]
  rcases splitHead_cases p with ⟨rest, hparts, hsplit⟩ | ⟨rest, hparts, hne, hsplit⟩ | ⟨rfl, -⟩ |
    ⟨first, rest, hparts, hfirst, hsplit⟩
  · rw [head?_of_dot hparts, hsplit]
    rfl
  · obtain ⟨second, more, rfl⟩ := List.exists_cons_of_ne_nil hne
    rw [head?_of_root hparts, hsplit]
    rfl
  · rfl
  · rw [head?_of_name hparts hfirst, hsplit]
    rfl

/-- Text whose names hold no NUL holds none. -/
theorem not_nul_mem (h : ∀ name ∈ p.names, '\x00' ∉ name.toList) : '\x00' ∉ p.text.toList := by
  have hparts : ∀ part ∈ p.parts, '\x00' ∉ part.toList := by
    intro part hpart
    by_cases hfiller : isFiller part = true
    · rcases isFiller_iff.mp hfiller with rfl | rfl <;> decide
    · exact h part (List.mem_filter.mpr ⟨hpart, by simpa using hfiller⟩)
  rw [text_eq_intercalate]
  generalize p.parts = parts at hparts
  induction parts with
  | nil => simp
  | cons part rest ih =>
    have hpart := hparts part List.mem_cons_self
    have hrest := ih fun q hq => hparts q (List.mem_cons_of_mem _ hq)
    by_cases hnil : rest = []
    · simpa [hnil] using hpart
    · rw [String.intercalate_cons_of_ne_nil hnil]
      simp only [String.toList_append, List.mem_append, not_or]
      exact ⟨⟨hpart, by decide⟩, hrest⟩

/-! ### Joins -/

theorem not_isFiller_of_isName (h : IsName name) : isFiller name = false := by
  obtain ⟨-, -, hempty, hdot, -, -⟩ := h
  simp [isFiller, hempty, hdot]

theorem parts_append_name (p : Path) (h : IsName name) :
    (Path.mk (p.text ++ "/" ++ name)).parts = p.parts ++ [name] := by
  have hname : name.toList.splitOn '/' = [name.toList] := by
    rw [← Text.splitAll_eq_splitOn, Text.splitAll_of_not_mem h.1]
  rw [Path.parts, Path.parts, Text.splitAll_eq_splitOn, Text.splitAll_eq_splitOn]
  simp [String.toList_append, List.splitOn_append_cons_self, hname]

/-- What stands before a name that a path is joined with makes the names of the path. -/
theorem parts_join (p : Path) (h : IsName name) :
    ∃ before, (p.join name).parts = before ++ [name] ∧
      before.filter (!isFiller ·) = p.names ∧ (p.join name).isAbsolute = p.isAbsolute := by
  have hhead : ¬ name.toList.head? = some '/' := fun hhead => h.1 (List.mem_of_head? hhead)
  rw [join, if_neg hhead]
  by_cases hempty : p.text = ""
  · rw [if_pos hempty]
    obtain rfl : p = ⟨""⟩ := by
      cases p
      exact congrArg Path.mk hempty
    exact ⟨[], parts_of_isName h, by decide, isAbsolute_of_isName h⟩
  rw [if_neg hempty]
  have habs : ∀ s : String, (Path.mk (p.text ++ s)).isAbsolute = p.isAbsolute := by
    intro s
    have hne : p.text.toList ≠ [] := by simpa using hempty
    simp [isAbsolute, List.head?_append_of_ne_nil _ hne]
  split
  · next hlast =>
    obtain ⟨cs, hcs⟩ : ∃ cs, p.text.toList = cs ++ ['/'] :=
      ⟨_, (List.dropLast_append_getLast? '/' hlast).symm⟩
    let q : Path := ⟨String.ofList cs⟩
    have hp : p.text = q.text ++ "/" := by
      apply String.toList_inj.mp
      simp [q, hcs]
    refine ⟨q.parts, ?_, ?_, habs name⟩
    · rw [hp, parts_append_name q h]
    · have hparts : p.parts = q.parts ++ [""] := by
        rw [Path.parts, Text.splitAll_eq_splitOn, hcs, List.splitOn_append_cons_self, Path.parts,
          Text.splitAll_eq_splitOn]
        simp [q]
      rw [names, hparts, List.filter_append, List.filter_cons_of_neg (by decide)]
      simp
  · refine ⟨p.parts, parts_append_name p h, rfl, ?_⟩
    rw [String.append_assoc]
    exact habs _

theorem utf8ByteSize_join_le (p : Path) (name : String) :
    (p.join name).text.utf8ByteSize ≤ p.text.utf8ByteSize + 1 + name.utf8ByteSize := by
  unfold join
  have hsep : "/".utf8ByteSize = 1 := by decide
  split_ifs
  · simp
  · simp
  · simp only [String.utf8ByteSize_append]
    omega
  · simp only [String.utf8ByteSize_append]
    omega

theorem names_join (p : Path) (h : IsName name) : (p.join name).names = p.names ++ [name] := by
  obtain ⟨before, hparts, hbefore, -⟩ := parts_join p h
  rw [names, hparts, List.filter_append, hbefore,
    List.filter_cons_of_pos (by simp [not_isFiller_of_isName h]), List.filter_nil]

/-! ### The number of parents -/

/-- How often a parent can be taken. -/
def steps (p : Path) : Nat :=
  p.names.length + if p.head? = some .current then 1 else 0

theorem countP_splitOn_le (cs : List Char) :
    (cs.splitOn '/').countP (!·.isEmpty) ≤ cs.length := by
  induction cs with
  | nil => simp
  | cons c rest ih =>
    rw [List.splitOn_cons_eq_if_modifyHead]
    split
    · rw [List.countP_cons_of_neg (by simp), List.length_cons]
      omega
    · cases hrest : rest.splitOn '/' with
      | nil => simp
      | cons first more =>
        rw [hrest, List.countP_cons] at ih
        rw [List.modifyHead_cons, List.countP_cons, List.length_cons]
        simp only [List.isEmpty_cons, Bool.not_false, if_true]
        omega

theorem steps_le (p : Path) : p.steps ≤ p.text.length := by
  have hcount : p.parts.countP (· ≠ "") ≤ p.text.length := by
    rw [Path.parts, Text.splitAll_eq_splitOn, List.countP_map, ← String.length_toList]
    refine le_trans (le_of_eq (List.countP_congr fun piece _ => ?_)) (countP_splitOn_le _)
    cases piece <;> simp
  refine le_trans ?_ hcount
  rw [steps, names, ← List.countP_eq_length_filter]
  have hle : ∀ parts : List String, parts.countP (!isFiller ·) ≤ parts.countP (· ≠ "") := by
    intro parts
    apply List.countP_mono_left
    intro part _ h
    by_contra hempty
    obtain rfl : part = "" := by simpa using hempty
    exact absurd h (by decide)
  split
  · next hhead =>
    rcases splitHead_cases p with ⟨rest, hparts, -⟩ | ⟨_, -, -, hsplit⟩ | ⟨-, hsplit⟩ |
      ⟨_, _, -, -, hsplit⟩
    · rw [hparts, List.countP_cons_of_neg (by decide), List.countP_cons_of_pos (by decide)]
      have := hle rest
      omega
    · simp [head?, hsplit] at hhead
    · simp [head?, hsplit] at hhead
    · simp [head?, hsplit] at hhead
  · exact hle p.parts

end Path

end MakeLint
