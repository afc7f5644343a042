import MakeLint.CommandLine
import MakeLint.Proofs.Config.Search
/-!
# The file that the subcommands name

The listing of the configuration and the subcommand that prints its file do not ask which file was
used: both search again from the current directory. They name the file in force exactly when the
arguments ask for no other, and the arguments can ask for none, for a file by its name, or for the one
that another directory leads to.
-/

namespace MakeLint

namespace CommandLine

open ConfigSearch

variable {e : Environment} {a : Arguments} {c : Config} {picked : Option Path}

/-! ### What is named -/

/-- The heading of the path in a listing. -/
def fileHeading : String :=
  "Config file: "

/-- The path that a line of a listing names. -/
def namedInLine? : Message → Option Path
  | .error line =>
    if fileHeading.toList.isPrefixOf line.toList then
      some ⟨String.ofList (line.toList.drop fileHeading.length)⟩
    else
      none
  | _ => none

/-- The path that the listing of a configuration names. -/
def shownFile? (o : Outcome) : Option Path :=
  o.messages.findSome? namedInLine?

/-- The path that an outcome has on standard output. -/
def printedFile? (o : Outcome) : Option Path :=
  o.messages.findSome? fun
    | .out line => some ⟨line⟩
    | _ => none

theorem namedInLine?_heading (path : Path) :
    namedInLine? (.error (fileHeading ++ path.text)) = some path := by
  have hprefix : fileHeading.toList.isPrefixOf (fileHeading ++ path.text).toList = true := by
    simp [String.toList_append]
  rw [namedInLine?, if_pos hprefix, String.toList_append, ← String.length_toList, List.drop_left]
  simp

/-- No line of the values begins as the one that names the file. -/
theorem namedInLine?_configLines (c : Config) :
    ∀ line ∈ configLines c, namedInLine? (.error line) = none := by
  have hhead : ∀ line : String, line.toList.head? ≠ some 'C' → namedInLine? (.error line) = none := by
    intro line hline
    rw [namedInLine?, if_neg]
    intro hprefix
    obtain ⟨rest, hrest⟩ := List.isPrefixOf_iff_prefix.mp hprefix
    rw [← hrest] at hline
    exact hline rfl
  intro line hline
  apply hhead
  rw [configLines] at hline
  rcases List.mem_append.mp hline with hline | hline
  · simp only [List.mem_cons, List.not_mem_nil, or_false] at hline
    rcases hline with rfl | rfl | rfl | rfl | rfl | rfl | rfl | rfl | rfl | rfl | rfl | rfl <;> simp
  · obtain ⟨cls, -, rfl⟩ := List.mem_map.mp hline
    simp

theorem findSome?_configLines (c : Config) (rest : List Message) :
    ((configLines c).map Message.error ++ rest).findSome? namedInLine? =
      rest.findSome? namedInLine? := by
  have hnone : ((configLines c).map Message.error).findSome? namedInLine? = none := by
    rw [List.findSome?_eq_none_iff]
    rintro m hm
    obtain ⟨line, hline, rfl⟩ := List.mem_map.mp hm
    exact namedInLine?_configLines c line hline
  rw [List.findSome?_append, hnone, Option.none_or]

/-- The listing holds the values and names what the search from the current directory finds. -/
theorem shownFile?_outcome (hcommand : a.command = some .configShow) (hload : Config.load e a = .ok c) :
    (∃ rest, (outcome e a).messages = (configLines c).map .error ++ rest) ∧
      shownFile? (outcome e a) = foundFile? e := by
  have houtcome : outcome e a = command e a .configShow := by
    rw [outcome, hcommand]
  rw [houtcome, shownFile?, command, hload]
  simp only [quiet, List.map_append]
  refine ⟨⟨_, rfl⟩, ?_⟩
  rw [findSome?_configLines]
  cases foundFile? e with
  | none => rfl
  | some path =>
    have hblank : namedInLine? (.error "") = none := by decide
    have hnamed := namedInLine?_heading path
    simp only [fileHeading] at hnamed
    simp [hblank, hnamed]

theorem printedFile?_outcome (hcommand : a.command = some .configPath) :
    printedFile? (outcome e a) = foundFile? e ∧
      ((outcome e a).exitStatus = 1 ↔ foundFile? e = none) := by
  have houtcome : outcome e a = command e a .configPath := by
    rw [outcome, hcommand]
  rw [houtcome, command, printedFile?]
  cases foundFile? e with
  | none => simp [quiet]
  | some path => simp [quiet]

/-! ### What is in force -/

/-- The same file, or none on either side. -/
def SameFile (v : FileView) (p q : Option Path) : Prop :=
  p.isSome = q.isSome ∧ target? v p = target? v q

/-- The arguments ask for no other file than the one that the search from the current directory
finds. -/
def AsksForFound (e : Environment) (a : Arguments) : Prop :=
  if a.noConfig then foundFile? e = none
  else
    match a.configFile with
    | some path => ∃ found, foundFile? e = some found ∧ e.files.find found = e.files.find path
    | none => ∀ start ∈ a.inputs.head?,
      target? e.files (foundFile? e) = target? e.files (ConfigSearch.find? e start)

theorem sameFile_found_iff (start : Path) :
    SameFile e.files (foundFile? e) (ConfigSearch.find? e start) ↔
      target? e.files (foundFile? e) = target? e.files (ConfigSearch.find? e start) := by
  refine ⟨And.right, fun h => ⟨?_, h⟩⟩
  rw [foundFile?, ← isSome_target?_find?, ← isSome_target?_find?]
  exact congrArg Option.isSome h

theorem sameFile_some_iff {path : Path} (hexists : e.files.exists? path = true) :
    SameFile e.files (foundFile? e) (some path) ↔
      ∃ found, foundFile? e = some found ∧ e.files.find found = e.files.find path := by
  rw [exists?_eq_isSome] at hexists
  obtain ⟨t, ht⟩ := Option.isSome_iff_exists.mp hexists
  constructor
  · rintro ⟨hsome, htarget⟩
    obtain ⟨found, hfound⟩ := Option.isSome_iff_exists.mp hsome
    rw [hfound] at htarget
    have hleads : (e.files.find found).toOption = some t := htarget.trans ht
    exact ⟨found, hfound, by rw [FileView.find_eq_of_toOption hleads, FileView.find_eq_of_toOption ht]⟩
  · rintro ⟨found, hfound, hfind⟩
    rw [hfound]
    exact ⟨rfl, congrArg Except.toOption hfind⟩

/-- The file that is named is the one in force exactly when the arguments ask for no other. -/
theorem sameFile_iff (hpicked : Config.file? e a = .ok picked) :
    SameFile e.files (foundFile? e) picked ↔ AsksForFound e a := by
  rw [AsksForFound]
  by_cases hsearch : a.noConfig = true
  · rw [Config.file?, if_pos hsearch] at hpicked
    obtain rfl := Except.ok.inj hpicked
    rw [if_pos hsearch]
    cases foundFile? e <;> simp [SameFile]
  rw [Config.file?, if_neg hsearch] at hpicked
  rw [if_neg hsearch]
  cases hnamed : a.configFile with
  | some path =>
    simp only [hnamed] at hpicked
    by_cases hexists : e.files.exists? path = true
    · rw [if_pos hexists] at hpicked
      obtain rfl := Except.ok.inj hpicked
      exact sameFile_some_iff hexists
    · rw [if_neg hexists] at hpicked
      cases hpicked
  | none =>
    simp only [hnamed] at hpicked
    obtain rfl := Except.ok.inj hpicked
    cases a.inputs.head? with
    | none => simp [SameFile, foundFile?]
    | some start => simpa using sameFile_found_iff start

theorem isAbsolute_currentPath (v : FileView) : v.currentPath.isAbsolute = true := by
  simp [FileView.currentPath, FileView.absolute, Path.isAbsolute]

/-- With a directory among the arguments, what is named is found on the way from the current directory
to the root, and what is in force on the way from that directory to where its path starts. -/
theorem asksForFound_iff_of_spells {start : Path} {place : List String} (hsearch : a.noConfig = false)
    (hnamed : a.configFile = none) (hstart : a.inputs.head? = some start)
    (hspells : e.files.Spells start place)
    (hcurrent : e.files.Spells e.files.currentPath e.files.here)
    (hroom : HasRoom start) (hroom' : HasRoom e.files.currentPath) :
    AsksForFound e a ↔
      upToRoot? e e.files.here =
        ((within e.files start).findSome? (foundIn? e.files)).or (foundAtHome? e) := by
  have hfound : target? e.files (foundFile? e) = upToRoot? e e.files.here :=
    (target?_eq_upToRoot?_iff hcurrent.leadsTo hroom').mpr
      (reachesAll_of_isAbsolute (isAbsolute_currentPath e.files))
  have hinForce := target?_find? hspells.leadsTo hroom
  rw [AsksForFound, if_neg (by simp [hsearch])]
  simp only [hnamed, hstart, Option.mem_def, Option.some.injEq, forall_eq', hfound, hinForce]

/-- The listing names the file that the search from the current directory finds, and so does the
subcommand for the path, which fails if there is none. That is the file in force exactly when the
arguments ask for no other, as when they ask for nothing; a directory among them asks for the file
that is found on the way up from it. -/
theorem names_found_file (e : Environment) (a : Arguments) (picked : Option Path)
    (hpicked : Config.file? e a = .ok picked) :
    (a.command = some .configShow → ∀ c, Config.load e a = .ok c →
      (∃ rest, (outcome e a).messages = (configLines c).map .error ++ rest) ∧
      (SameFile e.files (shownFile? (outcome e a)) picked ↔ AsksForFound e a)) ∧
    (a.command = some .configPath →
      (SameFile e.files (printedFile? (outcome e a)) picked ↔ AsksForFound e a) ∧
      ((outcome e a).exitStatus = 1 ↔ printedFile? (outcome e a) = none)) ∧
    (a.noConfig = false → a.configFile = none → a.inputs = [] →
      AsksForFound e a ∧ foundFile? e = picked) ∧
    ∀ start place, a.noConfig = false → a.configFile = none → a.inputs.head? = some start →
      e.files.Spells start place → e.files.Spells e.files.currentPath e.files.here →
      HasRoom start → HasRoom e.files.currentPath →
      (AsksForFound e a ↔ upToRoot? e e.files.here =
        ((within e.files start).findSome? (foundIn? e.files)).or (foundAtHome? e)) := by
  have hsame := sameFile_iff hpicked
  refine ⟨fun hcommand c hload => ?_, fun hcommand => ?_, fun hsearch hnamed hinputs => ?_,
    fun start place => asksForFound_iff_of_spells⟩
  · obtain ⟨hvalues, hshown⟩ := shownFile?_outcome hcommand hload
    rw [hshown]
    exact ⟨hvalues, hsame⟩
  · obtain ⟨hprinted, hone⟩ := printedFile?_outcome (e := e) hcommand
    rw [hprinted]
    exact ⟨hsame, hone⟩
  · have hfound : foundFile? e = picked := by
      rw [Config.file?_eq_find? hsearch hnamed rfl, hinputs] at hpicked
      exact Except.ok.inj hpicked
    exact ⟨hsame.mp ⟨congrArg Option.isSome hfound, by rw [hfound]⟩, hfound⟩

/-! ### A configuration file in the current directory -/

/-- A configuration file at the root, seen from there. -/
def atRoot : Environment where
  files := ⟨.directory [(".makelrc", .file (Bytes.ofString "max_line_length = 64\n"))], []⟩
  home := none

theorem find_atRoot :
    atRoot.files.find ⟨".makelrc"⟩ =
      .ok ([".makelrc"], .file (Bytes.ofString "max_line_length = 64\n")) :=
  FileView.find_of_isName (by decide +kernel) rfl rfl (by simp)

theorem leadsTo_atRoot : atRoot.files.LeadsTo atRoot.files.currentPath [] :=
  ⟨by decide +kernel, by decide +kernel, _, rfl⟩

theorem target?_atRoot :
    target? atRoot.files (foundFile? atRoot) =
      some ([".makelrc"], .file (Bytes.ofString "max_line_length = 64\n")) := by
  have hfound : foundIn? atRoot.files [] =
      some ([".makelrc"], .file (Bytes.ofString "max_line_length = 64\n")) := by
    rw [foundIn?_eq rfl (by simp [fileNames, List.lookup_cons])]
    simp [fileNames]
  rw [foundFile?, (target?_eq_upToRoot?_iff leadsTo_atRoot (by decide +kernel)).mpr
    (reachesAll_of_isAbsolute (by decide +kernel))]
  simp [upToRoot?, around, hfound]

theorem names_found_file_named :
    ∃ a, Arguments.parse ["--config", ".makelrc", "config", "path"] = .ok a ∧
      Config.file? atRoot a = .ok (some ⟨".makelrc"⟩) ∧
      SameFile atRoot.files (printedFile? (outcome atRoot a)) (some ⟨".makelrc"⟩) ∧
      (outcome atRoot a).exitStatus ≠ 1 := by
  let a : Arguments := { configFile := some ⟨".makelrc"⟩, command := some .configPath }
  have hexists : atRoot.files.exists? ⟨".makelrc"⟩ = true := by
    rw [FileView.exists?, find_atRoot]
  have hpicked : Config.file? atRoot a = .ok (some ⟨".makelrc"⟩) := by
    simp [Config.file?, a, hexists]
  have hasks : AsksForFound atRoot a := by
    have htarget := target?_atRoot
    cases hfound : foundFile? atRoot with
    | none => simp [hfound, target?] at htarget
    | some found =>
      rw [hfound] at htarget
      refine ⟨found, hfound, ?_⟩
      rw [find_atRoot]
      exact FileView.find_eq_of_toOption htarget
  obtain ⟨-, hpath, -, -⟩ := names_found_file atRoot a _ hpicked
  obtain ⟨hsame, hone⟩ := hpath rfl
  have hprinted := hsame.mpr hasks
  refine ⟨a, rfl, hpicked, hprinted, fun hstatus => ?_⟩
  rw [hone.mp hstatus] at hprinted
  exact absurd hprinted.1 (by simp)

theorem names_unused_file :
    ∃ a, Arguments.parse ["--no-config", "config", "path"] = .ok a ∧
      Config.file? atRoot a = .ok none ∧ Config.load atRoot a = .ok (Config.ofArguments a) ∧
      (outcome atRoot a).exitStatus ≠ 1 ∧
      ∃ path, printedFile? (outcome atRoot a) = some path ∧
        atRoot.files.find path =
          .ok ([".makelrc"], .file (Bytes.ofString "max_line_length = 64\n")) := by
  let a : Arguments := { noConfig := true, command := some .configPath }
  have htarget := target?_atRoot
  obtain ⟨hprinted, hone⟩ := printedFile?_outcome (e := atRoot) (a := a) rfl
  cases hfound : foundFile? atRoot with
  | none => simp [hfound, target?] at htarget
  | some path =>
    rw [hfound] at htarget hprinted hone
    refine ⟨a, rfl, rfl, rfl, fun hstatus => ?_, path, hprinted, FileView.find_eq_of_toOption htarget⟩
    exact absurd (hone.mp hstatus) (by simp)

end CommandLine

end MakeLint
