import MakeLint.CommandLine
import MakeLint.Proofs.FileTree
import MakeLint.Proofs.Output.Document
import MakeLint.Proofs.Run.Results
/-!
# Standard output with a document

A run that writes a document writes nothing else to standard output, as long as it is not asked to say
more. Being asked for both makes no difference to a run over a single makefile; a run over several adds
its remarks before the document and its summary after it. The command line turns down the two options
together, but one of them can come from the configuration file.
-/

namespace MakeLint

namespace Message

variable (escapes : Bool) (elapsed : String)

theorem stdout_append (first second : List Message) :
    stdout escapes elapsed (first ++ second) =
      stdout escapes elapsed first ++ stdout escapes elapsed second := by
  simp [stdout, String.join_append]

theorem stdout_cons (m : Message) (rest : List Message) :
    stdout escapes elapsed (m :: rest) = m.outText escapes elapsed ++ stdout escapes elapsed rest := by
  simp [stdout, String.join_cons]

/-- Lines on standard error leave no trace on standard output. -/
theorem stdout_errors {messages : List Message} (h : ∀ m ∈ messages, ∃ line, m = .error line) :
    stdout escapes elapsed messages = "" := by
  induction messages with
  | nil => rfl
  | cons m rest ih =>
    obtain ⟨line, rfl⟩ := h m List.mem_cons_self
    rw [stdout_cons, ih fun n hn => h n (List.mem_cons_of_mem _ hn)]
    rfl

/-- A line on the console is written, be it empty. -/
theorem stdout_console_ne (line : Styled) (rest : List Message) :
    0 < (stdout escapes elapsed (.console line :: rest)).length := by
  rw [stdout_cons, String.length_append, outText, String.length_append]
  have hnewline : "\n".length = 1 := by decide
  omega

end Message

/-- What a caller reads from standard output. -/
def Outcome.stdout (elapsed : String) (o : Outcome) : String :=
  Message.stdout o.escapes elapsed o.messages

namespace Run

variable {e : Environment} {c : Config} {p : Paint} (escapes : Bool) (elapsed : String)

theorem stdout_allMessages (run : Run) :
    Message.stdout escapes elapsed run.allMessages = Message.stdout escapes elapsed run.messages := by
  unfold allMessages
  split
  · rfl
  · rw [Message.stdout_append, Output.failure]
    simp [Message.stdout, Message.outText]

theorem stdout_results (hjson : c.json = true) (results : List FileResult) :
    Message.stdout escapes elapsed (Output.results c p results) =
      (Output.document results).text ++ "\n" := by
  rw [Output.results, if_pos hjson]
  simp [Message.stdout, Message.outText]

/-- The results of the makefiles that a run can read, in order. -/
def linted (e : Environment) (a : Arguments) (c : Config) : List FileResult :=
  if c.recursive then
    match Discovery.discover e c (if a.inputs.isEmpty then [⟨"."⟩] else a.inputs) with
    | .ok found => resultsOf e.files c found.files
    | .error _ => []
  else
    (selectedResult e c a.files).toOption.toList

/-! ### Several makefiles -/

/-- What a run over several makefiles adds when it is asked to say more. -/
def summaryText (v : FileView) (c : Config) (p : Paint) (paths : List Path) : String :=
  Message.stdout escapes elapsed
    (Output.runSummary p (resultsOf v c paths) (failuresOf v c paths).length)

theorem summaryText_length (v : FileView) (c : Config) (p : Paint) (paths : List Path) :
    0 < (summaryText escapes elapsed v c p paths).length := by
  unfold summaryText Output.runSummary
  exact Message.stdout_console_ne escapes elapsed _ _

theorem stdout_files (hjson : c.json = true) (v : FileView) (paths : List Path) :
    Message.stdout escapes elapsed (files v c p paths).messages =
      (Output.document (resultsOf v c paths)).text ++ "\n" ++
        if c.verbose then summaryText escapes elapsed v c p paths else "" := by
  unfold files
  dsimp only
  rw [Message.stdout_append, Message.stdout_append, Message.stdout_errors,
    stdout_results escapes elapsed hjson, String.empty_append]
  · congr 1
    split <;> rfl
  · intro m hm
    obtain ⟨⟨path, cause⟩, -, rfl⟩ := List.mem_map.mp hm
    exact ⟨_, rfl⟩

theorem stdout_discovered (hjson : c.json = true) {inputs : List Path} {found : Discovery.Found}
    (hfound : Discovery.discover e c (if inputs.isEmpty then [⟨"."⟩] else inputs) = .ok found)
    (hfiles : found.files ≠ []) :
    Message.stdout escapes elapsed (discovered e c p inputs).messages =
      Message.stdout escapes elapsed (remarkMessages c p found.remarks) ++
        ((Output.document (resultsOf e.files c found.files)).text ++ "\n" ++
          if c.verbose then summaryText escapes elapsed e.files c p found.files else "") := by
  unfold discovered
  rw [hfound]
  dsimp only
  rw [if_neg (by simpa using hfiles), Message.stdout_append, stdout_files escapes elapsed hjson]

/-! ### The makefiles that are linted -/

variable {a : Arguments}

/-- Over several makefiles, those linted are the discovered ones that can be read. -/
theorem linted_of_recursive (hrecursive : c.recursive = true) (hlinted : linted e a c ≠ []) :
    ∃ found, Discovery.discover e c (if a.inputs.isEmpty then [⟨"."⟩] else a.inputs) = .ok found ∧
      found.files ≠ [] ∧ linted e a c = resultsOf e.files c found.files := by
  unfold linted at hlinted ⊢
  rw [if_pos hrecursive] at hlinted ⊢
  cases hfound : Discovery.discover e c (if a.inputs.isEmpty then [⟨"."⟩] else a.inputs) with
  | error cause =>
    rw [hfound] at hlinted
    exact absurd rfl hlinted
  | ok found =>
    rw [hfound] at hlinted
    refine ⟨found, rfl, ?_, rfl⟩
    intro hnone
    dsimp only at hlinted
    rw [hnone] at hlinted
    exact hlinted rfl

theorem linted_of_not_recursive (hrecursive : c.recursive = false) (hlinted : linted e a c ≠ []) :
    ∃ r, selectedResult e c a.files = .ok r ∧ linted e a c = [r] := by
  unfold linted at hlinted ⊢
  rw [if_neg (by simp [hrecursive])] at hlinted ⊢
  cases hresult : selectedResult e c a.files with
  | error cause =>
    rw [hresult] at hlinted
    exact absurd rfl hlinted
  | ok r => exact ⟨r, rfl, rfl⟩

/-! ### One document and its newline -/

theorem stdout_outcome (hcommand : a.command = none)
    (hconfig : CommandLine.configFor e a = .ok c) (elapsed : String) :
    (CommandLine.outcome e a).stdout elapsed =
      Message.stdout (CommandLine.consoleFor e c).escapes elapsed
        (CommandLine.runFor e a c (CommandLine.consoleFor e c).paint).messages := by
  rw [Outcome.stdout, CommandLine.outcome, hcommand]
  simp only [hconfig]
  exact stdout_allMessages _ elapsed _

/-- The document is there whole, be it with something before and after it. -/
theorem stdout_surrounds_document (hcommand : a.command = none)
    (hconfig : CommandLine.configFor e a = .ok c) (hjson : c.json = true) (hwatch : c.watch = false)
    (hlinted : linted e a c ≠ []) (elapsed : String) :
    ∃ before after, (CommandLine.outcome e a).stdout elapsed =
        before ++ ((Output.document (linted e a c)).text ++ "\n") ++ after ∧
      (c.recursive = true → c.verbose = true → 0 < after.length) ∧
      (¬ (c.recursive = true ∧ c.verbose = true) → before = "" ∧ after = "") := by
  rw [stdout_outcome hcommand hconfig, CommandLine.runFor, if_neg (by simp [hwatch])]
  cases hrecursive : c.recursive with
  | false =>
    obtain ⟨r, hr, hresults⟩ := linted_of_not_recursive hrecursive hlinted
    rw [if_neg Bool.false_ne_true, selected_eq, hr, stdout_results _ elapsed hjson, hresults]
    refine ⟨"", "", ?_, by simp, by simp⟩
    rw [String.empty_append, String.append_empty]
  | true =>
    obtain ⟨found, hfound, hfiles, hresults⟩ := linted_of_recursive hrecursive hlinted
    rw [if_pos rfl, stdout_discovered _ elapsed hjson hfound hfiles, hresults, ← String.append_assoc]
    refine ⟨_, _, rfl, ?_, ?_⟩
    · intro _ hverbose
      rw [if_pos hverbose]
      exact summaryText_length _ elapsed e.files c _ found.files
    · intro hquiet
      have hverbose : ¬ c.verbose = true := fun h => hquiet ⟨rfl, h⟩
      rw [remarkMessages, if_neg hverbose, if_neg hverbose]
      exact ⟨rfl, rfl⟩

theorem stdout_ne_document (hcommand : a.command = none)
    (hconfig : CommandLine.configFor e a = .ok c) (hjson : c.json = true) (hwatch : c.watch = false)
    (hlinted : linted e a c ≠ []) (hrecursive : c.recursive = true) (hverbose : c.verbose = true)
    (elapsed : String) :
    (CommandLine.outcome e a).stdout elapsed ≠ (Output.document (linted e a c)).text ++ "\n" := by
  obtain ⟨before, after, hstdout, hmore, -⟩ :=
    stdout_surrounds_document hcommand hconfig hjson hwatch hlinted elapsed
  intro heq
  have hlength := congrArg String.length (hstdout.symm.trans heq)
  have hafter := hmore hrecursive hverbose
  simp only [String.length_append] at hlength
  omega

/-- Standard output is the document and nothing else, unless a run over several makefiles is asked to
say more: then something follows the document. -/
theorem stdout_eq_document_iff (e : Environment) (a : Arguments) (c : Config)
    (hcommand : a.command = none) (hconfig : CommandLine.configFor e a = .ok c)
    (hjson : c.json = true) (hwatch : c.watch = false) (hlinted : linted e a c ≠ [])
    (elapsed : String) :
    ((CommandLine.outcome e a).stdout elapsed =
        (Output.document (linted e a c)).text ++ "\n" ↔
      ¬ (c.recursive = true ∧ c.verbose = true)) ∧
    (∃ before after, (CommandLine.outcome e a).stdout elapsed =
      before ++ ((Output.document (linted e a c)).text ++ "\n") ++ after) ∧
    (Output.document (linted e a c)).member? "files" =
      some (.array ((linted e a c).map Output.fileJson)) ∧
    (c.recursive = true →
      ∃ found, Discovery.discover e c (if a.inputs.isEmpty then [⟨"."⟩] else a.inputs) = .ok found ∧
        List.Forall₂ (fun path r => Makefile.lintFile e.files c path = .ok r)
          (found.files.filter e.files.isReadable) (linted e a c)) ∧
    (c.recursive = false → ∃ r, selectedResult e c a.files = .ok r ∧ linted e a c = [r]) := by
  obtain ⟨before, after, hstdout, -, hnothing⟩ :=
    stdout_surrounds_document hcommand hconfig hjson hwatch hlinted elapsed
  refine ⟨⟨?_, ?_⟩, ⟨before, after, hstdout⟩, Output.files_document _, ?_,
    fun h => linted_of_not_recursive h hlinted⟩
  · rintro heq ⟨hrecursive, hverbose⟩
    exact stdout_ne_document hcommand hconfig hjson hwatch hlinted hrecursive hverbose elapsed heq
  · intro hquiet
    obtain ⟨rfl, rfl⟩ := hnothing hquiet
    rw [hstdout, String.empty_append, String.append_empty]
  · intro hrecursive
    obtain ⟨found, hfound, -, hresults⟩ := linted_of_recursive hrecursive hlinted
    rw [hresults]
    exact ⟨found, hfound, forall₂_resultsOf e.files c found.files⟩

/-! ### A makefile with a configuration file beside it -/

/-- One clean makefile and a configuration file. -/
def configured (config : String) : Environment where
  files := ⟨.directory
    [("Makefile", .file (Bytes.ofString "a:\n")), ("c.toml", .file (Bytes.ofString config))], []⟩
  home := none

/-- Arguments that ask for a document on the makefile, which is named among the roots. -/
def documentArguments : Arguments where
  inputs := [⟨"Makefile"⟩]
  configFile := some ⟨"c.toml"⟩
  recursive := true
  json := true

theorem parse_documentArguments :
    Arguments.parse ["--json", "-r", "--config", "c.toml", "Makefile"] = .ok documentArguments :=
  rfl

theorem find_configured (config name : String) {content : Bytes}
    (hname : Path.IsName name)
    (hfile : (configured config).files.root.child? name = some (.file content)) :
    (configured config).files.find ⟨name⟩ = .ok ([name], .file content) :=
  FileView.find_of_isName hname rfl hfile (by simp)

theorem load_configured {config : String} {f : FileConfig}
    (htext : Utf8.decode? (Bytes.ofString config) = some config)
    (hparse : FileConfig.parse? config = some f) :
    Config.load (configured config) documentArguments =
      Config.withFile documentArguments f ⟨"c.toml"⟩ := by
  have hfind := find_configured config "c.toml" (by decide +kernel) rfl
  have hexists : (configured config).files.exists? ⟨"c.toml"⟩ = true := by
    rw [FileView.exists?, hfind]
  have hload : FileConfig.load (configured config).files ⟨"c.toml"⟩ = .ok f := by
    rw [FileConfig.load, FileView.readText, FileView.read, hfind]
    simp [bind, Except.bind, htext, hparse]
  have hfile : Config.file? (configured config) documentArguments = .ok (some ⟨"c.toml"⟩) := by
    simp [Config.file?, documentArguments, hexists]
  rw [Config.load, hfile]
  simp [bind, Except.bind, hload]

theorem linted_configured (config : String) (hglob : c.glob = defaultGlob)
    (hrecursive : c.recursive = true) : linted (configured config) documentArguments c ≠ [] := by
  have hname : Path.IsName "Makefile" := by decide +kernel
  have hfind := find_configured config "Makefile" hname rfl
  have hread : Makefile.readFile (configured config).files ⟨"Makefile"⟩ =
      .ok (Bytes.ofString "a:\n") :=
    Makefile.readFile_of_isName hname rfl rfl
  have hglobs : (Glob.parseList defaultGlob).isOk = true := by decide +kernel
  cases hparse : Glob.parseList defaultGlob with
  | error cause =>
    rw [hparse] at hglobs
    cases hglobs
  | ok globs =>
    have hfound : Discovery.discover (configured config) c documentArguments.inputs =
        .ok ⟨[⟨"Makefile"⟩], []⟩ := by
      simp [Discovery.discover, hglob, hparse, documentArguments, Discovery.ofRoot, hfind,
        Path.sorted, Path.distinct, Path.distinctFrom]
    rw [linted, if_pos hrecursive]
    change (match Discovery.discover (configured config) c documentArguments.inputs with
      | .ok found => resultsOf (configured config).files c found.files
      | .error _ => []) ≠ []
    rw [hfound]
    simp [resultsOf, Makefile.lintFile, hread, Except.map, Except.toOption]

/-- The configuration of a run on the makefile. -/
def documentConfig (verbose : Bool) : Config :=
  { Config.ofArguments documentArguments with verbose := verbose }

/-- A configuration file that holds nothing but whether to say more. -/
theorem configFor_configured (config : String) (verbose : Option Bool)
    (htext : Utf8.decode? (Bytes.ofString config) = some config)
    (hparse : FileConfig.parse? config = some { verbose := verbose }) :
    CommandLine.configFor (configured config) documentArguments =
      .ok (documentConfig (verbose.getD false)) := by
  rw [CommandLine.configFor, load_configured htext hparse]
  rfl

theorem stdout_ne_document_verbose :
    let e := configured "verbose = true\n"
    ∃ a c, Arguments.parse ["--json", "-r", "--config", "c.toml", "Makefile"] = .ok a ∧
      CommandLine.configFor e a = .ok c ∧ c.json = true ∧ c.watch = false ∧ linted e a c ≠ [] ∧
      (CommandLine.outcome e a).stdout "0" ≠ (Output.document (linted e a c)).text ++ "\n" := by
  intro e
  have hconfig := configFor_configured "verbose = true\n" (some true)
    (by decide +kernel) (by decide +kernel)
  have hlinted : linted e documentArguments (documentConfig true) ≠ [] :=
    linted_configured _ rfl rfl
  exact ⟨documentArguments, _, parse_documentArguments, hconfig, rfl, rfl, hlinted,
    stdout_ne_document rfl hconfig rfl rfl hlinted rfl rfl "0"⟩

theorem stdout_eq_document_quiet :
    let e := configured ""
    ∃ a c, CommandLine.configFor e a = .ok c ∧ c.json = true ∧ c.recursive = true ∧
      linted e a c ≠ [] ∧
      (CommandLine.outcome e a).stdout "0" = (Output.document (linted e a c)).text ++ "\n" := by
  intro e
  have hconfig := configFor_configured "" none (by decide +kernel) (by decide +kernel)
  have hlinted : linted e documentArguments (documentConfig false) ≠ [] :=
    linted_configured _ rfl rfl
  have h := stdout_eq_document_iff e documentArguments _ rfl hconfig rfl rfl hlinted "0"
  exact ⟨documentArguments, _, hconfig, rfl, rfl, hlinted, h.1.mpr (by decide)⟩

end Run

end MakeLint
