import Mathlib.Data.List.Sort
import MakeLint.Path
/-!
# The order of paths

Components are ordered by their rank and names among each other as text, and paths as lists of
components. Two paths are equal in this order exactly when their components agree. A sorted list of
paths increases strictly and holds, up to equality in this order, what it was made from; so its
components depend on nothing but the components of the paths it was made from.
-/

namespace MakeLint.Path

namespace Component

/-- The text of a name. -/
def text : Component → String
  | name s => s
  | _ => ""

theorem compare_eq_compareLex : Component.compare = compareLex (compareOn rank) (compareOn text) := by
  funext a b
  cases a <;> cases b <;> rfl

instance : Std.TransCmp Component.compare := by
  rw [compare_eq_compareLex]
  infer_instance

instance : Std.LawfulEqCmp Component.compare where
  eq_of_compare {a b} h := by
    rw [compare_eq_compareLex, compareLex_eq_eq] at h
    have hrank : a.rank = b.rank := Std.LawfulEqOrd.eq_of_compare h.1
    have htext : a.text = b.text := Std.LawfulEqOrd.eq_of_compare h.2
    cases a <;> cases b <;> simp_all [rank, text]

end Component

theorem compareComponents_eq_compareLex :
    compareComponents = List.compareLex Component.compare := by
  funext as bs
  induction as generalizing bs with
  | nil => cases bs <;> rfl
  | cons a as ih =>
    cases bs with
    | nil => rfl
    | cons b bs => rw [compareComponents, List.compareLex_cons_cons, ih]

instance : Std.TransCmp compareComponents := by
  rw [compareComponents_eq_compareLex]
  infer_instance

instance : Std.LawfulEqCmp compareComponents := by
  rw [compareComponents_eq_compareLex]
  infer_instance

instance : Std.TransCmp compare where
  eq_swap := (inferInstance : Std.OrientedCmp compareComponents).eq_swap
  isLE_trans := (inferInstance : Std.TransCmp compareComponents).isLE_trans

variable {p q : Path} {paths rest : List Path}

/-- Paths are equal in their order exactly when they have the same components. -/
theorem compare_eq_eq_iff : p.compare q = .eq ↔ p.components = q.components := by
  rw [compare]
  exact Std.LawfulEqCmp.compare_eq_iff_eq

theorem le_iff : p.le q = true ↔ (p.compare q).isLE = true := by
  rw [le]
  cases p.compare q <;> decide

/-! ### Each once -/

theorem mem_of_mem_distinctFrom (h : q ∈ distinctFrom p rest) : q ∈ p :: rest := by
  induction rest generalizing p with
  | nil => exact h
  | cons r rest ih =>
    rw [distinctFrom] at h
    split at h
    · rcases List.mem_cons.mp (ih h) with rfl | hmem
      · exact List.mem_cons_self
      · exact List.mem_cons_of_mem _ (List.mem_cons_of_mem _ hmem)
    · rcases List.mem_cons.mp h with rfl | hmem
      · exact List.mem_cons_self
      · exact List.mem_cons_of_mem _ (ih hmem)

theorem exists_mem_distinctFrom (h : q ∈ p :: rest) :
    ∃ r ∈ distinctFrom p rest, r.components = q.components := by
  induction rest generalizing p q with
  | nil => exact ⟨q, h, rfl⟩
  | cons r rest ih =>
    rw [distinctFrom]
    split
    · next heq =>
      rcases List.mem_cons.mp h with rfl | h
      · exact ih List.mem_cons_self
      rcases List.mem_cons.mp h with rfl | h
      · obtain ⟨first, hfirst, hcomponents⟩ := ih (List.mem_cons_self (a := p))
        exact ⟨first, hfirst, hcomponents.trans (compare_eq_eq_iff.mp heq)⟩
      · exact ih (List.mem_cons_of_mem _ h)
    · rcases List.mem_cons.mp h with rfl | h
      · exact ⟨q, List.mem_cons_self, rfl⟩
      · obtain ⟨first, hfirst, hcomponents⟩ := ih h
        exact ⟨first, List.mem_cons_of_mem _ hfirst, hcomponents⟩

/-- Of an ordered list, what is left without repetitions increases strictly. -/
theorem pairwise_distinctFrom (h : (p :: rest).Pairwise (fun q r => q.le r = true)) :
    (distinctFrom p rest).Pairwise fun q r => q.compare r = .lt := by
  induction rest generalizing p with
  | nil => simp [distinctFrom]
  | cons r rest ih =>
    rw [distinctFrom]
    obtain ⟨hp, hr⟩ := List.pairwise_cons.mp h
    split
    · refine ih (List.pairwise_cons.mpr ⟨fun q hq => hp q (List.mem_cons_of_mem _ hq), hr.of_cons⟩)
    · next hne =>
      refine List.pairwise_cons.mpr ⟨fun q hq => ?_, ih hr⟩
      have hlt : p.compare r = .lt := by
        have hle := le_iff.mp (hp r List.mem_cons_self)
        cases hpr : p.compare r <;> simp_all
      rcases List.mem_cons.mp (mem_of_mem_distinctFrom hq) with rfl | hmem
      · exact hlt
      · exact Std.TransCmp.lt_of_lt_of_isLE hlt (le_iff.mp (List.rel_of_pairwise_cons hr hmem))

/-! ### Sorted lists -/

theorem pairwise_mergeSort (paths : List Path) :
    (paths.mergeSort le).Pairwise fun p q => p.le q = true := by
  apply List.pairwise_mergeSort
  · intro p q r hpq hqr
    rw [le_iff] at hpq hqr ⊢
    exact Std.TransCmp.isLE_trans hpq hqr
  · intro p q
    rw [Bool.or_eq_true, le_iff, le_iff]
    have hswap : p.compare q = (q.compare p).swap := Std.OrientedCmp.eq_swap
    rw [hswap]
    cases q.compare p <;> simp

theorem pairwise_sorted (paths : List Path) :
    (sorted paths).Pairwise fun p q => p.compare q = .lt := by
  have hpairwise := pairwise_mergeSort paths
  rw [sorted]
  cases hsort : paths.mergeSort le with
  | nil => exact List.Pairwise.nil
  | cons p rest =>
    rw [hsort] at hpairwise
    exact pairwise_distinctFrom hpairwise

theorem mem_of_mem_sorted (h : p ∈ sorted paths) : p ∈ paths := by
  rw [sorted] at h
  cases hsort : paths.mergeSort le with
  | nil =>
    rw [hsort] at h
    cases h
  | cons q rest =>
    rw [hsort] at h
    have hmem := mem_of_mem_distinctFrom h
    rw [← hsort] at hmem
    exact List.mem_mergeSort.mp hmem

theorem exists_mem_sorted (h : p ∈ paths) : ∃ q ∈ sorted paths, q.components = p.components := by
  have hmem : p ∈ paths.mergeSort le := List.mem_mergeSort.mpr h
  rw [sorted]
  cases hsort : paths.mergeSort le with
  | nil =>
    rw [hsort] at hmem
    cases hmem
  | cons q rest =>
    rw [hsort] at hmem
    exact exists_mem_distinctFrom hmem

/-- What a list of paths comes to in order depends only on which paths are in it. -/
theorem sorted_congr {paths' : List Path} (h : ∀ p, p ∈ paths ↔ p ∈ paths') :
    (sorted paths).map components = (sorted paths').map components := by
  let r (as bs : List Component) : Prop := compareComponents as bs = .lt
  have : Std.Irrefl r := ⟨fun as h => by simp [r, Std.ReflCmp.compare_self] at h⟩
  have : Std.Antisymm r := ⟨fun as bs h h' => by
    have hswap : compareComponents as bs = (compareComponents bs as).swap := Std.OrientedCmp.eq_swap
    simp [r, hswap] at h h'
    simp [h'] at h⟩
  have hpairwise : ∀ paths, ((sorted paths).map components).Pairwise r := fun paths =>
    List.pairwise_map.mpr (pairwise_sorted paths)
  have hmem : ∀ {paths paths' : List Path}, (∀ p ∈ paths, p ∈ paths') →
      ∀ as ∈ (sorted paths).map components, as ∈ (sorted paths').map components := by
    intro paths paths' hsub as has
    obtain ⟨p, hp, rfl⟩ := List.mem_map.mp has
    obtain ⟨q, hq, hcomponents⟩ := exists_mem_sorted (hsub p (mem_of_mem_sorted hp))
    exact List.mem_map.mpr ⟨q, hq, hcomponents⟩
  exact List.Pairwise.eq_of_mem_iff (hpairwise paths) (hpairwise paths') fun as =>
    ⟨hmem (fun p hp => (h p).mp hp) as, hmem (fun p hp => (h p).mpr hp) as⟩

end MakeLint.Path
