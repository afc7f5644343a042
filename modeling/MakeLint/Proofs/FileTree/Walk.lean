import MakeLint.FileTree
/-!
# Walks

What lies below a node is said by the entries alone: a walk that skips nothing comes to all of it, and
one that stops at a depth to what lies no deeper. No walk goes through a link, since only a directory
has entries.
-/

namespace MakeLint.Node

/-- A node lies below another, at the end of these names. -/
inductive LiesBelow : Node → List String → Node → Prop
  | entry {es : List (String × Node)} {name : String} {node : Node} :
      (name, node) ∈ es → LiesBelow (directory es) [name] node
  | deeper {es : List (String × Node)} {name : String} {child node : Node} {below : List String} :
      (name, child) ∈ es → LiesBelow child below node →
      LiesBelow (directory es) (name :: below) node

variable {σ : Type} {step : σ → String → Node → Option σ} {s : σ}
  {es : List (String × Node)} {place : List String} {n found : Node}

/-- A walk over entries comes to each that is not skipped and to what it comes to below it. -/
theorem mem_walkEntries :
    (place, found) ∈ walkEntries step s es ↔
      ∃ name child s', (name, child) ∈ es ∧ step s name child = some s' ∧
        (place = [name] ∧ found = child ∨
          ∃ below, place = name :: below ∧ (below, found) ∈ walk step s' child) := by
  induction es with
  | nil => simp [walkEntries]
  | cons entry rest ih =>
    obtain ⟨name, child⟩ := entry
    rw [walkEntries, List.mem_append, ih]
    constructor
    · rintro (hfirst | ⟨name', child', s', hmem, hrest⟩)
      · cases hs : step s name child with
        | none => simp [hs] at hfirst
        | some s' =>
          rw [hs] at hfirst
          refine ⟨name, child, s', List.mem_cons_self, hs, ?_⟩
          rcases List.mem_cons.mp hfirst with heq | hbelow
          · exact .inl (Prod.mk.inj heq)
          · obtain ⟨⟨below, node⟩, hwalk, heq⟩ := List.mem_map.mp hbelow
            obtain ⟨rfl, rfl⟩ := Prod.mk.inj heq
            exact .inr ⟨below, rfl, hwalk⟩
      · exact ⟨name', child', s', List.mem_cons_of_mem _ hmem, hrest⟩
    · rintro ⟨name', child', s', hmem, hs, hplace⟩
      rcases List.mem_cons.mp hmem with heq | hmem
      · obtain ⟨rfl, rfl⟩ := Prod.mk.inj heq
        left
        rw [hs]
        rcases hplace with ⟨rfl, rfl⟩ | ⟨below, rfl, hwalk⟩
        · exact List.mem_cons_self
        · exact List.mem_cons_of_mem _ (List.mem_map.mpr ⟨(below, found), hwalk, rfl⟩)
      · exact .inr ⟨name', child', s', hmem, hs, hplace⟩

theorem mem_walk :
    (place, found) ∈ walk step s n ↔
      ∃ name child s', (name, child) ∈ n.entries ∧ step s name child = some s' ∧
        (place = [name] ∧ found = child ∨
          ∃ below, place = name :: below ∧ (below, found) ∈ walk step s' child) := by
  cases n with
  | directory es =>
    rw [walk]
    exact mem_walkEntries
  | file | locked | device | link => simp [walk, entries]

theorem liesBelow_iff :
    LiesBelow n place found ↔
      ∃ name child, (name, child) ∈ n.entries ∧
        (place = [name] ∧ found = child ∨
          ∃ below, place = name :: below ∧ LiesBelow child below found) := by
  constructor
  · intro h
    cases h with
    | entry hmem => exact ⟨_, _, hmem, .inl ⟨rfl, rfl⟩⟩
    | deeper hmem hbelow => exact ⟨_, _, hmem, .inr ⟨_, rfl, hbelow⟩⟩
  · rintro ⟨name, child, hmem, hplace⟩
    cases n with
    | directory es =>
      rcases hplace with ⟨rfl, rfl⟩ | ⟨below, rfl, hbelow⟩
      · exact .entry hmem
      · exact .deeper hmem hbelow
    | file | locked | device | link => cases hmem

theorem LiesBelow.ne_nil (h : LiesBelow n place found) : place ≠ [] := by
  cases h <;> simp

/-- Under a step that goes on exactly within a depth, a walk comes to what lies below and no deeper. -/
theorem mem_walk_iff {depth : σ → Nat} {limit : Nat}
    (hstep : ∀ s name child, (step s name child).isSome = true ↔ (0 < limit → depth s < limit))
    (hdepth : ∀ s name child s', step s name child = some s' → depth s' = depth s + 1) :
    (place, found) ∈ walk step s n ↔
      LiesBelow n place found ∧ (0 < limit → depth s + place.length ≤ limit) := by
  induction place generalizing s n with
  | nil =>
    rw [mem_walk, liesBelow_iff]
    simp
  | cons name below ih =>
    rw [mem_walk, liesBelow_iff]
    constructor
    · rintro ⟨name', child, s', hmem, hs, hplace⟩
      have hlimit := (hstep s name' child).mp (by simp [hs])
      rcases hplace with ⟨hsingle, rfl⟩ | ⟨below', hcons, hwalk⟩
      · refine ⟨⟨name', found, hmem, .inl ⟨hsingle, rfl⟩⟩, fun h => ?_⟩
        rw [hsingle, List.length_singleton]
        exact hlimit h
      · obtain ⟨rfl, rfl⟩ := List.cons.inj hcons
        obtain ⟨hbelow, hdeep⟩ := ih.mp hwalk
        refine ⟨⟨name, child, hmem, .inr ⟨below, rfl, hbelow⟩⟩, fun h => ?_⟩
        have := hdeep h
        rw [hdepth s name child s' hs] at this
        rw [List.length_cons]
        omega
    · rintro ⟨⟨name', child, hmem, hplace⟩, hdeep⟩
      have hgoes : (step s name' child).isSome = true := by
        rw [hstep]
        intro h
        have := hdeep h
        rw [List.length_cons] at this
        omega
      obtain ⟨s', hs⟩ := Option.isSome_iff_exists.mp hgoes
      refine ⟨name', child, s', hmem, hs, ?_⟩
      rcases hplace with hsingle | ⟨below', hcons, hbelow⟩
      · exact .inl hsingle
      · obtain ⟨rfl, rfl⟩ := List.cons.inj hcons
        refine .inr ⟨below, rfl, ih.mpr ⟨hbelow, fun h => ?_⟩⟩
        have := hdeep h
        rw [List.length_cons] at this
        rw [hdepth s name child s' hs]
        omega

end MakeLint.Node
