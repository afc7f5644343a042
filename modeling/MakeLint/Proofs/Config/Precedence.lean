import MakeLint.Config.Search
import MakeLint.Proofs.Config.File
/-!
# Precedence of settings

The command line comes before the configuration file, and the file before what is built in; a setting
of the command line that has its default value counts as not given. Overrides of single classes follow
the same order, and the last of them on the command line wins.
-/

namespace MakeLint

namespace Config

/-! ### One setting -/

/-- A setting is that of the command line where it differs from the default, else that of the file if
it has one, else the default. -/
def Follows {α : Type} [DecidableEq α] (a : Arguments) (c : Config) (setting : Config → α)
    (entry : Option α) : Prop :=
  setting c =
    if setting (ofArguments a) = setting (ofArguments {}) then
      entry.getD (setting (ofArguments {}))
    else setting (ofArguments a)

theorem choose_eq {α : Type} [DecidableEq α] {given default : α} {isDefault : Bool}
    (h : isDefault = true ↔ given = default) (entry : Option α) :
    FileConfig.choose isDefault entry given =
      if given = default then entry.getD default else given := by
  unfold FileConfig.choose
  by_cases hgiven : given = default
  · rw [if_pos (h.mpr hgiven), if_pos hgiven, hgiven]
  · rw [if_neg (mt h.mp hgiven), if_neg hgiven]

/-- The configuration that a command line and a configuration file amount to. -/
structure Precedence (a : Arguments) (f : FileConfig) (c : Config) : Prop where
  action : ∀ cls, c.warnings.action cls =
    ((Override.lastFor? cls a.overrides).or (f.warnings.lookup cls.name)).getD cls.defaultAction
  maxLineLength : c.Follows a (·.style.maxLineLength) f.maxLineLength
  onlyEmptyBlankLines : c.Follows a (·.style.onlyEmptyBlankLines) f.onlyEmptyBlankLines
  bracketStyle : c.style.bracketStyle = f.bracketStyle.getD .round
  verbose : c.Follows a Config.verbose f.verbose
  color : c.Follows a Config.color f.color
  json : c.Follows a Config.json f.json
  recursive : c.Follows a Config.recursive f.recursive
  glob : c.Follows a Config.glob f.glob
  gitignore : c.Follows a Config.gitignore f.gitignore
  maxDepth : c.Follows a Config.maxDepth f.maxDepth
  watch : c.watch = a.watch
  debounceMs : c.debounceMs = a.debounceMs

variable {a : Arguments} {f : FileConfig} {c c' : Config}

/-- Precedence leaves no setting open. -/
theorem Precedence.unique (h : Precedence a f c) (h' : Precedence a f c') : c = c' := by
  have hwarnings : c.warnings = c'.warnings := by
    apply congrArg Registry.mk (funext fun cls => ?_)
    rw [h.action, h'.action]
  have hstyle : c.style = c'.style := by
    rw [Style.mk.injEq]
    exact ⟨h.maxLineLength.trans h'.maxLineLength.symm,
      h.onlyEmptyBlankLines.trans h'.onlyEmptyBlankLines.symm,
      h.bracketStyle.trans h'.bracketStyle.symm⟩
  rw [Config.mk.injEq]
  exact ⟨hstyle, hwarnings, h.recursive.trans h'.recursive.symm, h.glob.trans h'.glob.symm,
    h.gitignore.trans h'.gitignore.symm, h.maxDepth.trans h'.maxDepth.symm,
    h.color.trans h'.color.symm, h.verbose.trans h'.verbose.symm, h.json.trans h'.json.symm,
    h.watch.trans h'.watch.symm, h.debounceMs.trans h'.debounceMs.symm⟩

theorem precedence_merge (hkeys : (f.warnings.map Prod.fst).Nodup)
    (hmerge : (ofArguments a).merge a f = .ok c) : Precedence a f c := by
  unfold merge at hmerge
  cases hread : f.overrides with
  | error name =>
    rw [hread] at hmerge
    cases hmerge
  | ok os =>
    rw [hread] at hmerge
    obtain rfl := Except.ok.inj hmerge
    have hentries : f.warnings = os.map FileConfig.entryOf :=
      FileConfig.mapM_override?_eq_ok_iff.mp hread
    constructor
    case action =>
      intro cls
      rw [hentries] at hkeys
      rw [Registry.action_withOverrides, Override.lastFor?_append,
        FileConfig.lastFor?_eq_lookup hkeys, ← hentries]
    case bracketStyle => rfl
    case watch => rfl
    case debounceMs => rfl
    case maxLineLength => exact choose_eq decide_eq_true_iff _
    case color => exact choose_eq decide_eq_true_iff _
    case glob => exact choose_eq decide_eq_true_iff _
    case maxDepth => exact choose_eq decide_eq_true_iff _
    -- The flags: one that is not set has its default.
    case verbose => exact choose_eq (Bool.not_eq_true' _).to_iff _
    case json => exact choose_eq (Bool.not_eq_true' _).to_iff _
    case recursive => exact choose_eq (Bool.not_eq_true' _).to_iff _
    case onlyEmptyBlankLines => exact choose_eq (Iff.rfl) _
    case gitignore => exact choose_eq (Iff.rfl) _

/-- The order of the table of warnings does not show in what a file amounts to. -/
theorem merge_perm {entries : List (String × Action)} (horder : entries.Perm f.warnings)
    (hkeys : (f.warnings.map Prod.fst).Nodup)
    (hmerge : (ofArguments a).merge a { f with warnings := entries } = .ok c) :
    Precedence a f c := by
  have hkeys' : (entries.map Prod.fst).Nodup := (horder.map Prod.fst).nodup_iff.mpr hkeys
  have h := precedence_merge (f := { f with warnings := entries }) hkeys' hmerge
  refine { h with action := ?_ }
  intro cls
  rw [h.action, FileConfig.lookup_perm horder hkeys]

theorem merge_eq_error_iff {name : String} :
    (ofArguments a).merge a f = .error name ↔ f.overrides = .error name := by
  unfold merge
  cases f.overrides <;> simp [Except.map]

/-! ### The file of a run -/

theorem withFile_eq_ok_iff {path : Path} :
    withFile a f path = .ok c ↔ (ofArguments a).merge a f = .ok c := by
  unfold withFile
  cases (ofArguments a).merge a f <;> simp

theorem withFile_eq_error_iff {path : Path} {cause : Failure} :
    withFile a f path = .error cause ↔
      ∃ name, f.overrides = .error name ∧ cause = .configUnknownClass name path := by
  simp only [← merge_eq_error_iff (a := a)]
  unfold withFile
  cases (ofArguments a).merge a f <;> simp [eq_comm]

theorem exists_withFile_eq_error_iff {path : Path} :
    (∃ cause, withFile a f path = .error cause) ↔
      ∃ entry ∈ f.warnings, WarningClass.ofName? entry.1 = none := by
  simp only [← FileConfig.exists_error_iff, withFile_eq_error_iff]
  constructor
  · rintro ⟨cause, name, hname, -⟩
    exact ⟨name, hname⟩
  · rintro ⟨name, hname⟩
    exact ⟨_, name, hname, rfl⟩

/-- Whatever the order of the table of warnings, a file is turned down exactly for a name that is no
class, and otherwise amounts to what precedence says. -/
theorem withFile_precedence (a : Arguments) (f : FileConfig) (path : Path)
    (entries : List (String × Action)) (hkeys : (f.warnings.map Prod.fst).Nodup)
    (horder : entries.Perm f.warnings) :
    let merged := withFile a { f with warnings := entries } path
    ((∃ cause, merged = .error cause) ↔
      ∃ entry ∈ f.warnings, WarningClass.ofName? entry.1 = none) ∧
    (∀ cause, merged = .error cause → ∃ entry ∈ f.warnings,
      WarningClass.ofName? entry.1 = none ∧ cause = .configUnknownClass entry.1 path) ∧
    (∀ c, merged = .ok c → Precedence a f c) ∧
    merged.toOption = (withFile a f path).toOption := by
  intro merged
  have hmerged : (∃ cause, merged = .error cause) ↔
      ∃ entry ∈ f.warnings, WarningClass.ofName? entry.1 = none := by
    unfold merged
    rw [exists_withFile_eq_error_iff]
    simp only [horder.mem_iff]
  have hprecedence : ∀ c, merged = .ok c → Precedence a f c := by
    intro c hc
    exact merge_perm horder hkeys (withFile_eq_ok_iff.mp hc)
  refine ⟨hmerged, ?_, hprecedence, ?_⟩
  · intro cause hcause
    obtain ⟨name, hname, rfl⟩ := withFile_eq_error_iff.mp hcause
    obtain ⟨entry, hentry, rfl, hunknown⟩ := FileConfig.mem_of_mapM_override?_eq_error hname
    exact ⟨entry, horder.mem_iff.mp hentry, hunknown, rfl⟩
  · have hagree : (∃ cause, merged = .error cause) ↔ ∃ cause, withFile a f path = .error cause :=
      hmerged.trans exists_withFile_eq_error_iff.symm
    cases hm : merged with
    | error cause =>
      obtain ⟨cause', hcause'⟩ := hagree.mp ⟨cause, hm⟩
      rw [hcause']
      rfl
    | ok c =>
      cases hf : withFile a f path with
      | error cause =>
        obtain ⟨cause', hcause'⟩ := hagree.mpr ⟨cause, hf⟩
        rw [hm] at hcause'
        cases hcause'
      | ok c' =>
        rw [(hprecedence c hm).unique (precedence_merge hkeys (withFile_eq_ok_iff.mp hf))]

/-- Two entries in the other order, one of them for a class that the command line names twice. -/
theorem withFile_precedence_swapped :
    let text := "[warnings]\ntext = \"inform\"\nlong-line = \"ignore\"\n"
    let a : Arguments := { overrides := [⟨.text, .warn⟩, ⟨.text, .style⟩] }
    let swapped : List (String × Action) := [("long-line", .ignore), ("text", .inform)]
    ∃ f, FileConfig.parse? text = some f ∧ swapped.Perm f.warnings ∧
      ∃ c, withFile a { f with warnings := swapped } ⟨".makelrc"⟩ = .ok c ∧ Precedence a f c ∧
        c.warnings.action .text = .style ∧ c.warnings.action .longLine = .ignore ∧
        c.warnings.action .encoding = .warn := by
  intro text a swapped
  have hread : (FileConfig.parse? text).map FileConfig.warnings =
      some [("text", .inform), ("long-line", .ignore)] := by decide +kernel
  obtain ⟨f, hf, hwarnings⟩ := Option.map_eq_some_iff.mp hread
  have hperm : swapped.Perm f.warnings := by
    rw [hwarnings]
    exact List.Perm.swap ..
  have h := withFile_precedence a f ⟨".makelrc"⟩ swapped (FileConfig.nodup_warnings_of_parse? hf) hperm
  have hok : ∃ c, withFile a { f with warnings := swapped } ⟨".makelrc"⟩ = .ok c := ⟨_, rfl⟩
  obtain ⟨c, hc⟩ := hok
  have hprecedence : Precedence a f c := h.2.2.1 c hc
  refine ⟨f, hf, hperm, c, hc, hprecedence, ?_, ?_, ?_⟩
  all_goals
    rw [hprecedence.action, hwarnings]
    decide

end Config

end MakeLint
