import MakeLint.Makefile.Linting
import MakeLint.Output.Message
import MakeLint.Total
/-!
# Summaries

What is shown for each makefile, and for a run over several, when the user wants to hear more.
-/

namespace MakeLint.Output

def classesText (n : ClassCounts) : String :=
  "(" ++ toString n.empty ++ " empty, " ++ toString n.blank ++ " blank, " ++ toString n.comment ++
    " comment, " ++ toString n.commandLine ++ " command, " ++ toString n.other ++ " other)"

def warningCount (r : FileResult) : Nat :=
  r.diagnostics.countP Diagnostic.isWarning

def verdict (p : Paint) (r : FileResult) : Styled :=
  match r.severity with
  | some s =>
    p.warn
      (.text (toString (warningCount r) ++ " warning(s), highest severity " ++ s.name ++
        " (exit status " ++ toString s.rank ++ ")"))
  | none => p.success (.text "no warnings")

def labelled (p : Paint) (label : String) (body : Styled) : Styled :=
  .text "  " ++ p.label (.text label) ++ .text " " ++ body

def fileSummary (p : Paint) (r : FileResult) : List Message :=
  [.console (p.header (p.separator ++ .text (" " ++ r.report.file))),
    .console (labelled p "Lines:"
      (.text (toString r.report.lines ++ " " ++ classesText r.report.classes))),
    .console (labelled p "Result:" (verdict p r)),
    .console (labelled p "Time:"
      (.elapsed ++ .text ("ms (" ++ toString r.report.bytes ++ " bytes)")))]

def runSummary (p : Paint) (results : List FileResult) (errors : Nat) : List Message :=
  let flagged := results.countP fun r => r.severity.isSome
  let lines := total (fun r => r.report.lines) results
  [.console (.text ""),
    .console (p.separator ++ .text " Summary " ++ p.separator),
    .console (labelled p "Files:"
      (.text (toString results.length ++ " checked, " ++ toString flagged ++ " with warnings, " ++
        toString (results.length - flagged) ++ " clean"))),
    .console (labelled p "Lines:" (.text (toString lines)))] ++
  (if errors > 0 then
    [.console (.text "  " ++ p.wrap "bold red" (.text "Errors:") ++ .text (" " ++ toString errors))]
  else
    []) ++
  [.console (.text "")]

end MakeLint.Output
