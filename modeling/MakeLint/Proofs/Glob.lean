import Mathlib.Data.List.Forall2
import MakeLint.Glob
import MakeLint.Proofs.Path
/-!
# Lists of patterns

A list of patterns is accepted when it has a pattern, each of its patterns is well formed and none nests
too deep. Both that and the globs it stands for depend only on which patterns are in it, not on their
order or on how often one is repeated.
-/

namespace MakeLint.Glob

theorem mapM_eq_ok_iff {ε α β : Type} {f : α → Except ε β} {l : List α} {r : List β} :
    l.mapM f = .ok r ↔ List.Forall₂ (fun a b => f a = .ok b) l r := by
  induction l generalizing r with
  | nil =>
    rw [List.mapM_nil, List.forall₂_nil_left_iff]
    exact ⟨fun h => (Except.ok.inj h).symm, fun h => congrArg Except.ok h.symm⟩
  | cons a rest ih =>
    rw [List.mapM_cons, List.forall₂_cons_left_iff]
    constructor
    · intro h
      cases ha : f a with
      | error => simp [ha, bind, Except.bind] at h
      | ok b =>
        cases hrest : rest.mapM f with
        | error => simp [ha, hrest, bind, Except.bind] at h
        | ok bs =>
          simp only [ha, hrest, bind, Except.bind, pure, Except.pure] at h
          exact ⟨b, bs, rfl, ih.mp hrest, (Except.ok.inj h).symm⟩
    · rintro ⟨b, bs, ha, hrest, rfl⟩
      rw [ha, ih.mpr hrest]
      rfl

theorem mem_of_mapM_eq_ok {ε α β : Type} {f : α → Except ε β} {l : List α} {r : List β} {b : β}
    (h : l.mapM f = .ok r) : b ∈ r ↔ ∃ a ∈ l, f a = .ok b := by
  have hforall := mapM_eq_ok_iff.mp h
  clear h
  induction hforall with
  | nil => simp
  | cons hab _ ih =>
    simp only [List.mem_cons, or_and_right, exists_or, exists_eq_left, ih, hab, Except.ok.injEq]
    rw [eq_comm]

/-- A list can be read whole when each of its entries can be read. -/
theorem exists_mapM_eq_ok_iff {ε α β : Type} {f : α → Except ε β} {l : List α} :
    (∃ r, l.mapM f = .ok r) ↔ ∀ a ∈ l, ∃ b, f a = .ok b := by
  simp only [mapM_eq_ok_iff]
  induction l with
  | nil => simp
  | cons a rest ih =>
    rw [List.forall_mem_cons, ← ih]
    constructor
    · rintro ⟨r, hr⟩
      obtain ⟨b, bs, hb, hbs, -⟩ := List.forall₂_cons_left_iff.mp hr
      exact ⟨⟨b, hb⟩, bs, hbs⟩
    · rintro ⟨⟨b, hb⟩, bs, hbs⟩
      exact ⟨b :: bs, .cons hb hbs⟩

variable {list list' : String} {globs : List Glob} {g : Glob}

theorem parsePattern_eq_ok_iff {pattern : String} :
    parsePattern pattern = .ok g ↔ ofPattern pattern = .ok g := by
  rw [parsePattern]
  cases ofPattern pattern <;> simp [Except.mapError]

/-- The expression of a glob that is looked at nests no deeper than it may. -/
def IsShallow (g : Glob) : Prop :=
  lookup g.separate g.tokens = .extension ∨ lookup g.separate g.tokens = .expression →
    (Source.ofPattern g.separate g.tokens).levels ≤ maxLevels

theorem setError?_eq_none_iff : setError? globs = none ↔ ∀ g ∈ globs, g.IsShallow := by
  have hsources : ∀ way, (∀ s ∈ sources globs way, s.levels ≤ maxLevels) ↔
      ∀ g ∈ globs, lookup g.separate g.tokens = way →
        (Source.ofPattern g.separate g.tokens).levels ≤ maxLevels := by
    intro way
    simp only [sources, List.forall_mem_map, List.mem_filter, decide_eq_true_eq, and_imp]
  have hsplit : setError? globs = none ↔
      (∀ s ∈ sources globs .extension, s.levels ≤ maxLevels) ∧
        ∀ s ∈ sources globs .expression, s.levels ≤ maxLevels := by
    rw [setError?]
    split
    · next s hs =>
      have hdeep := List.find?_some hs
      have hmem := List.mem_of_find?_eq_some hs
      simp only [reduceCtorEq, false_iff]
      intro h
      have := h.1 s hmem
      simp at hdeep
      omega
    · next hnone =>
      simp only [List.find?_eq_none, decide_eq_true_eq, Nat.not_lt] at hnone
      rw [Option.map_eq_none_iff, List.findIdx?_eq_none_iff]
      simp only [decide_eq_false_iff_not, Nat.not_lt]
      exact ⟨fun h => ⟨hnone, h⟩, And.right⟩
  rw [hsplit, hsources, hsources]
  exact ⟨fun h g hg hway => hway.elim (h.1 g hg) (h.2 g hg),
    fun h => ⟨fun g hg hway => h g hg (.inl hway), fun g hg hway => h g hg (.inr hway)⟩⟩

theorem parseList_eq_ok_iff :
    parseList list = .ok globs ↔
      patterns list ≠ [] ∧ (patterns list).mapM parsePattern = .ok globs ∧
        ∀ g ∈ globs, g.IsShallow := by
  rw [← setError?_eq_none_iff, parseList]
  cases hpatterns : patterns list with
  | nil => simp
  | cons first rest =>
    dsimp only
    cases (first :: rest).mapM parsePattern with
    | error => simp
    | ok found =>
      dsimp only
      cases hset : setError? found with
      | some cause =>
        simp only [reduceCtorEq, Except.ok.injEq, ne_eq, not_false_eq_true, true_and, false_iff]
        rintro ⟨rfl, hnone⟩
        rw [hset] at hnone
        cases hnone
      | none =>
        simp only [Except.ok.injEq, ne_eq, reduceCtorEq, not_false_eq_true, true_and]
        exact ⟨fun h => ⟨h, h ▸ hset⟩, And.left⟩

/-- The globs of a list are those of its patterns. -/
theorem mem_of_parseList (h : parseList list = .ok globs) :
    g ∈ globs ↔ ∃ pattern ∈ patterns list, ofPattern pattern = .ok g := by
  obtain ⟨-, hglobs, -⟩ := parseList_eq_ok_iff.mp h
  simp only [mem_of_mapM_eq_ok hglobs, parsePattern_eq_ok_iff]

/-- A list with the same patterns is accepted too, and stands for the same globs. -/
theorem parseList_congr (h : parseList list = .ok globs)
    (hsame : ∀ pattern, pattern ∈ patterns list' ↔ pattern ∈ patterns list) :
    ∃ globs', parseList list' = .ok globs' ∧ ∀ g, g ∈ globs' ↔ g ∈ globs := by
  obtain ⟨hne, hglobs, hshallow⟩ := parseList_eq_ok_iff.mp h
  obtain ⟨globs', hglobs'⟩ : ∃ globs', (patterns list').mapM parsePattern = .ok globs' := by
    have hread := exists_mapM_eq_ok_iff.mp ⟨globs, hglobs⟩
    exact exists_mapM_eq_ok_iff.mpr fun pattern hpattern => hread pattern ((hsame pattern).mp hpattern)
  have hmem : ∀ g, g ∈ globs' ↔ g ∈ globs := by
    intro g
    simp only [mem_of_mapM_eq_ok hglobs, mem_of_mapM_eq_ok hglobs', hsame]
  refine ⟨globs', parseList_eq_ok_iff.mpr ⟨?_, hglobs', fun g hg => hshallow g ((hmem g).mp hg)⟩, hmem⟩
  obtain ⟨pattern, hpattern⟩ := List.exists_mem_of_ne_nil _ hne
  exact List.ne_nil_of_mem ((hsame pattern).mpr hpattern)

/-- The patterns of a list are what stands between its commas, without white space around it, as long
as something is left. -/
theorem mem_patterns_iff {pattern : String} :
    pattern ∈ patterns list ↔
      ∃ piece ∈ list.toList.splitOn ',',
        Text.trim piece ≠ [] ∧ pattern = String.ofList (Text.trim piece) := by
  rw [patterns, Text.splitAll_eq_splitOn]
  constructor
  · intro h
    obtain ⟨trimmed, htrimmed, rfl⟩ := List.mem_map.mp h
    obtain ⟨hmem, hne⟩ := List.mem_filter.mp htrimmed
    obtain ⟨piece, hpiece, rfl⟩ := List.mem_map.mp hmem
    exact ⟨piece, hpiece, by simpa using hne, rfl⟩
  · rintro ⟨piece, hpiece, hne, rfl⟩
    exact List.mem_map_of_mem (List.mem_filter.mpr
      ⟨List.mem_map_of_mem hpiece, by simpa using hne⟩)

end MakeLint.Glob
