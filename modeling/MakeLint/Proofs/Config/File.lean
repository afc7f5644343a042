import MakeLint.Config.File
import MakeLint.Proofs.Toml.Keys
import MakeLint.Proofs.Warning.Registry
import Mathlib.Data.List.Perm.Basic
/-!
# The table of warnings in a configuration file

An entry of the table gives a class a new action, and the table is turned down for a name that is no
class. The order in which the entries come makes no difference, because the table names each class at
most once: a class has one name, and no key stands twice in a table that has been read.
-/

namespace MakeLint

namespace FileConfig

/-! ### Overrides -/

/-- The override that an entry of the table stands for, if it names a class. -/
def override? (entry : String × Action) : Except String Override :=
  match WarningClass.ofName? entry.1 with
  | some cls => .ok ⟨cls, entry.2⟩
  | none => .error entry.1

theorem overrides_eq (f : FileConfig) : f.overrides = f.warnings.mapM override? :=
  rfl

/-- The entry that stands for an override. -/
def entryOf (o : Override) : String × Action :=
  (o.cls.name, o.action)

theorem entryOf_injective : Function.Injective entryOf := by
  rintro ⟨cls, action⟩ ⟨cls', action'⟩ h
  obtain ⟨hname, haction⟩ := Prod.mk.inj h
  rw [Override.mk.injEq]
  exact ⟨WarningClass.name_injective hname, haction⟩

theorem override?_eq_ok_iff {entry : String × Action} {o : Override} :
    override? entry = .ok o ↔ entry = entryOf o := by
  obtain ⟨name, action⟩ := entry
  obtain ⟨cls, act⟩ := o
  unfold override? entryOf
  cases hname : WarningClass.ofName? name with
  | none =>
    have hother : name ≠ cls.name := by
      rintro rfl
      rw [WarningClass.ofName?_eq_some_iff.mpr rfl] at hname
      cases hname
    simp [hother]
  | some known =>
    obtain rfl := WarningClass.ofName?_eq_some_iff.mp hname
    simp [WarningClass.name_injective.eq_iff]

theorem override?_eq_error_iff {entry : String × Action} {name : String} :
    override? entry = .error name ↔ entry.1 = name ∧ WarningClass.ofName? entry.1 = none := by
  unfold override?
  cases WarningClass.ofName? entry.1 <;> simp

theorem mapM_override?_eq_ok_iff {entries : List (String × Action)} {os : List Override} :
    entries.mapM override? = .ok os ↔ entries = os.map entryOf := by
  induction entries generalizing os with
  | nil => cases os <;> simp [pure, Except.pure]
  | cons entry rest ih =>
    rw [List.mapM_cons]
    cases hentry : override? entry with
    | error name =>
      refine iff_of_false (by simp [bind, Except.bind]) ?_
      intro h
      cases os with
      | nil => cases h
      | cons o os =>
        rw [override?_eq_ok_iff.mpr (List.cons.inj h).1] at hentry
        cases hentry
    | ok o =>
      obtain rfl := override?_eq_ok_iff.mp hentry
      cases hrest : rest.mapM override? with
      | error name =>
        refine iff_of_false (by simp [bind, Except.bind]) ?_
        intro h
        cases os with
        | nil => cases h
        | cons o' os =>
          rw [ih.mpr (List.cons.inj h).2] at hrest
          cases hrest
      | ok later =>
        obtain rfl := ih.mp hrest
        change Except.ok (o :: later) = .ok os ↔ _
        rw [Except.ok.injEq, ← List.map_cons,
          (List.map_injective_iff.mpr entryOf_injective).eq_iff]

theorem mem_of_mapM_override?_eq_error {entries : List (String × Action)} {name : String}
    (h : entries.mapM override? = .error name) :
    ∃ entry ∈ entries, entry.1 = name ∧ WarningClass.ofName? entry.1 = none := by
  induction entries with
  | nil => cases h
  | cons entry rest ih =>
    rw [List.mapM_cons] at h
    cases hentry : override? entry with
    | error other =>
      rw [hentry] at h
      obtain rfl := Except.error.inj h
      exact ⟨entry, List.mem_cons_self, override?_eq_error_iff.mp hentry⟩
    | ok o =>
      rw [hentry] at h
      cases hrest : rest.mapM override? with
      | error other =>
        rw [hrest] at h
        obtain rfl := Except.error.inj h
        obtain ⟨bad, hbad, hname⟩ := ih hrest
        exact ⟨bad, List.mem_cons_of_mem _ hbad, hname⟩
      | ok later =>
        rw [hrest] at h
        cases h

/-- The table is turned down for a name that is no class, and for nothing else. -/
theorem exists_error_iff (f : FileConfig) :
    (∃ name, f.overrides = .error name) ↔
      ∃ entry ∈ f.warnings, WarningClass.ofName? entry.1 = none := by
  rw [overrides_eq]
  constructor
  · rintro ⟨name, hname⟩
    obtain ⟨entry, hentry, -, hunknown⟩ := mem_of_mapM_override?_eq_error hname
    exact ⟨entry, hentry, hunknown⟩
  · rintro ⟨entry, hentry, hunknown⟩
    cases hread : f.warnings.mapM override? with
    | error name => exact ⟨name, rfl⟩
    | ok os =>
      rw [mapM_override?_eq_ok_iff.mp hread] at hentry
      obtain ⟨o, -, rfl⟩ := List.mem_map.mp hentry
      have hknown : WarningClass.ofName? o.cls.name = some o.cls :=
        WarningClass.ofName?_eq_some_iff.mpr rfl
      rw [entryOf, hknown] at hunknown
      cases hunknown

/-! ### Looking up an entry -/

theorem lookup_eq_some_iff_mem {entries : List (String × Action)}
    (h : (entries.map Prod.fst).Nodup) {name : String} {action : Action} :
    entries.lookup name = some action ↔ (name, action) ∈ entries := by
  induction entries with
  | nil => simp
  | cons entry rest ih =>
    obtain ⟨key, act⟩ := entry
    rw [List.map_cons, List.nodup_cons] at h
    rw [List.lookup_cons]
    by_cases hkey : name = key
    · subst hkey
      have habsent : (name, action) ∉ rest := by
        intro hmem
        exact h.1 (List.mem_map.mpr ⟨_, hmem, rfl⟩)
      simp [habsent, eq_comm]
    · simp [hkey, ih h.2, beq_eq_false_iff_ne.mpr hkey]

theorem lookup_perm {entries others : List (String × Action)} (hperm : entries.Perm others)
    (h : (others.map Prod.fst).Nodup) (name : String) :
    entries.lookup name = others.lookup name := by
  have hentries : (entries.map Prod.fst).Nodup := (hperm.map Prod.fst).nodup_iff.mpr h
  apply Option.ext
  intro action
  rw [lookup_eq_some_iff_mem hentries, lookup_eq_some_iff_mem h]
  exact hperm.mem_iff

/-- The override of a class is its entry, in whatever order the entries come. -/
theorem lastFor?_eq_lookup {os : List Override} (h : ((os.map entryOf).map Prod.fst).Nodup)
    (cls : WarningClass) :
    Override.lastFor? cls os = (os.map entryOf).lookup cls.name := by
  have hcls : (os.map Override.cls).Nodup := by
    apply List.Nodup.of_map WarningClass.name
    rw [List.map_map] at h ⊢
    exact h
  apply Option.ext
  intro action
  rw [Override.lastFor?_eq_some_iff hcls, lookup_eq_some_iff_mem h]
  exact (List.mem_map_of_injective entryOf_injective (a := ⟨cls, action⟩)).symm

/-! ### Tables that have been read -/

theorem map_fst_warnings? {origin : Toml.Origin} {table : Toml.Entries}
    {entries : List (String × Action)}
    (h : warnings? (.table origin table) = some entries) :
    entries.map Prod.fst = table.keys := by
  rw [warnings?] at h
  induction table generalizing entries with
  | nil =>
    obtain rfl := Option.some.inj h
    rfl
  | cons first rest ih =>
    rw [List.mapM_cons] at h
    obtain ⟨entry, hentry, h⟩ := Option.bind_eq_some_iff.mp h
    obtain ⟨later, hlater, h⟩ := Option.bind_eq_some_iff.mp h
    obtain rfl := Option.some.inj h
    obtain ⟨action, -, rfl⟩ := Option.map_eq_some_iff.mp hentry
    rw [List.map_cons, ih hlater]
    rfl

/-- A table of warnings that has been read names no class twice. -/
theorem nodup_warnings_of_parse? {text : String} {f : FileConfig} (h : parse? text = some f) :
    (f.warnings.map Prod.fst).Nodup := by
  obtain ⟨root, hroot, h⟩ := Option.bind_eq_some_iff.mp h
  have hsound : root.Sound := Toml.sound_parse? hroot
  have hread : ∃ table, entry root "warnings" warnings? = some table ∧
      f.warnings = table.getD [] := by
    simp only [ofEntries?, Option.bind_eq_bind, Option.bind_eq_some_iff, Option.some.injEq] at h
    grind
  obtain ⟨table, htable, hwarnings⟩ := hread
  rw [hwarnings]
  unfold entry at htable
  split at htable
  · obtain rfl := Option.some.inj htable
    exact List.nodup_nil
  · next v hv =>
    obtain ⟨entries, hentries, rfl⟩ := Option.map_eq_some_iff.mp htable
    cases v with
    | table origin written =>
      have hdistinct : Toml.Entries.Distinct written := hsound.get? hv
      rw [Option.getD_some, map_fst_warnings? hentries]
      exact hdistinct
    | _ => cases hentries

end FileConfig

end MakeLint
