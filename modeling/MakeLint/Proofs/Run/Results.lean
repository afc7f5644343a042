import MakeLint.Proofs.Makefile.Linting
import MakeLint.Run
import Mathlib.Data.List.Forall2
/-!
# The results of a run

Of several makefiles each that can be read has a result, in the order of the makefiles, and each other
one a failure. A run over a single makefile has a result when a makefile is found and can be read; the
diagnostics of the choice come first in it. In every result the severity is the worst among the
diagnostics.
-/

namespace MakeLint

/-- The file can be opened and read. -/
def FileView.isReadable (v : FileView) (path : Path) : Bool :=
  (v.openable path).isOk && (v.read path).isOk

/-- The severity of a result is the worst among its diagnostics. -/
def FileResult.Consistent (r : FileResult) : Prop :=
  r.severity = (r.diagnostics.filterMap Diagnostic.severity).max?

namespace Makefile

variable {v : FileView} {c : Config} {path : Path}

theorem isOk_readFile (v : FileView) (path : Path) : (readFile v path).isOk = v.isReadable path := by
  unfold readFile FileView.isReadable
  cases v.openable path <;> cases v.read path <;> rfl

theorem isOk_lintFile (v : FileView) (c : Config) (path : Path) :
    (lintFile v c path).isOk = v.isReadable path := by
  rw [← isOk_readFile, lintFile]
  cases readFile v path <;> rfl

/-- The name of a makefile in diagnostics. -/
def Source.name : Source → String
  | .stdin => stdinName
  | .file path => path.text

/-- What a makefile holds. -/
def Source.content (e : Environment) : Source → Except Failure Bytes
  | .stdin => .ok e.stdin
  | .file path => readFile e.files path

theorem lintSource_eq (e : Environment) (style : Style) (source : Source) (s : Sink) :
    lintSource e.files e.stdin style source s =
      (source.content e).map fun content => lintBytes source.name style content s := by
  cases source <;> rfl

end Makefile

namespace Run

variable {v : FileView} {c : Config} {paths : List Path}

/-! ### Several makefiles -/

/-- The makefiles that can be read have one result each, in order. -/
theorem forall₂_resultsOf (v : FileView) (c : Config) (paths : List Path) :
    List.Forall₂ (fun path r => Makefile.lintFile v c path = .ok r)
      (paths.filter v.isReadable) (resultsOf v c paths) := by
  have hresult (path : Path) :
      (Makefile.lintFile v c path).toOption.isSome = v.isReadable path := by
    rw [← Makefile.isOk_lintFile v c path]
    cases Makefile.lintFile v c path <;> rfl
  refine (forall₂_filterMap hresult paths).imp ?_
  intro path r hr
  cases hlint : Makefile.lintFile v c path with
  | error cause =>
    rw [hlint] at hr
    cases hr
  | ok r' =>
    rw [hlint] at hr
    exact congrArg Except.ok (Option.some.inj hr)

/-- The makefile of a run with what it holds. -/
def chosen (e : Environment) (files : List String) : Except Failure (Makefile.Source × Bytes) := do
  let source ← (Makefile.select e.files files ⟨""⟩).1
  return (source, ← source.content e)

/-- What the choice of the makefile leaves in the sink. -/
def choiceSink (e : Environment) (c : Config) (files : List String) : Sink :=
  Sink.addAll { registry := c.warnings } (Makefile.select e.files files ⟨""⟩).2

/-- The result of a run over a single makefile. -/
def selectedResult (e : Environment) (c : Config) (files : List String) :
    Except Failure FileResult :=
  (chosen e files).map fun (source, content) =>
    let (report, s) := Makefile.lintBytes source.name c.style content (choiceSink e c files)
    .ofSink report s

theorem selected_eq (e : Environment) (c : Config) (p : Paint) (files : List String) :
    selected e c p files =
      match selectedResult e c files with
      | .ok r => ⟨Output.results c p [r], .ok r.severity⟩
      | .error cause =>
        ⟨Output.diagnostics (choiceSink e c files).records.toList, .error cause⟩ := by
  unfold selected selectedResult chosen choiceSink
  cases hselect : Makefile.select e.files files ⟨""⟩ with
  | mk choice notices =>
    cases choice with
    | error cause => rfl
    | ok source =>
      simp only [Makefile.lintSource_eq]
      cases hcontent : source.content e with
      | error cause => simp [hcontent, Except.map, bind, Except.bind]
      | ok content => simp [hcontent, Except.map, bind, Except.bind, pure, Except.pure]; rfl

end Run

end MakeLint
