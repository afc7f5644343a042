import MakeLint.Arguments
import MakeLint.Arguments.Help
import MakeLint.Arguments.Option
import MakeLint.Arguments.Reader
import MakeLint.Arguments.Subcommand
import MakeLint.CommandLine
import MakeLint.Config
import MakeLint.Config.File
import MakeLint.Config.Search
import MakeLint.Config.Template
import MakeLint.Console
import MakeLint.Diagnostic
import MakeLint.Discovery
import MakeLint.Environment
import MakeLint.Failure
import MakeLint.FileTree
import MakeLint.Finding
import MakeLint.Glob
import MakeLint.Glob.Expr
import MakeLint.Glob.Lookup
import MakeLint.Glob.Pattern
import MakeLint.Glob.Range
import MakeLint.Glob.Source
import MakeLint.Ignore.Level
import MakeLint.Ignore.Line
import MakeLint.Ignore.Rule
import MakeLint.Ignore.User
import MakeLint.Ignore.Verdict
import MakeLint.Line
import MakeLint.Line.Class
import MakeLint.Line.Continuation
import MakeLint.Line.Encoding
import MakeLint.Line.Framing
import MakeLint.Line.InPlace
import MakeLint.Line.Pass
import MakeLint.Line.Scan
import MakeLint.Line.Width
import MakeLint.Lint
import MakeLint.Lint.Walk
import MakeLint.Main
import MakeLint.Makefile.Linting
import MakeLint.Makefile.Selection
import MakeLint.Output.Color
import MakeLint.Output.Document
import MakeLint.Output.Json
import MakeLint.Output.Message
import MakeLint.Output.Results
import MakeLint.Output.Summary
import MakeLint.Path
import MakeLint.Proofs.Config.File
import MakeLint.Proofs.Config.Precedence
import MakeLint.Proofs.FileTree
import MakeLint.Proofs.Finding
import MakeLint.Proofs.Line.Alike
import MakeLint.Proofs.Line.Continuation
import MakeLint.Proofs.Line.Framing
import MakeLint.Proofs.Line.InPlace
import MakeLint.Proofs.Line.Pass
import MakeLint.Proofs.Line.Physical
import MakeLint.Proofs.Line.Resolved
import MakeLint.Proofs.Line.Run
import MakeLint.Proofs.Line.Scan
import MakeLint.Proofs.Line.Width
import MakeLint.Proofs.Lint.Append
import MakeLint.Proofs.Lint.Clean
import MakeLint.Proofs.Lint.Findings
import MakeLint.Proofs.Lint.Logical
import MakeLint.Proofs.Lint.Repair
import MakeLint.Proofs.Lint.Repaired
import MakeLint.Proofs.Lint.Style
import MakeLint.Proofs.Makefile.Append
import MakeLint.Proofs.Makefile.Backslash
import MakeLint.Proofs.Makefile.Clean
import MakeLint.Proofs.Makefile.Linting
import MakeLint.Proofs.Makefile.Location
import MakeLint.Proofs.Makefile.Logical
import MakeLint.Proofs.Makefile.Repaired
import MakeLint.Proofs.Makefile.Style
import MakeLint.Proofs.Makefile.Tips
import MakeLint.Proofs.Notice
import MakeLint.Proofs.Output.Document
import MakeLint.Proofs.Output.Summary
import MakeLint.Proofs.Run.ExitStatus
import MakeLint.Proofs.Run.Results
import MakeLint.Proofs.Run.Shown
import MakeLint.Proofs.Run.StandardOutput
import MakeLint.Proofs.Severity
import MakeLint.Proofs.Shift
import MakeLint.Proofs.Sink
import MakeLint.Proofs.Text.Alike
import MakeLint.Proofs.Text.Chunks
import MakeLint.Proofs.Text.Columns
import MakeLint.Proofs.Text.Encode
import MakeLint.Proofs.Text.Repair
import MakeLint.Proofs.Text.Utf8
import MakeLint.Proofs.Toml.Keys
import MakeLint.Proofs.Total
import MakeLint.Proofs.Warning.Registry
import MakeLint.Proofs.Watch
import MakeLint.Run
import MakeLint.Severity
import MakeLint.Sink
import MakeLint.Snapshot
import MakeLint.Style
import MakeLint.Text.Blank
import MakeLint.Text.Bytes
import MakeLint.Text.Chunks
import MakeLint.Text.Columns
import MakeLint.Text.Utf8
import MakeLint.Toml.Number
import MakeLint.Toml.Parser
import MakeLint.Toml.Text
import MakeLint.Toml.Value
import MakeLint.Total
import MakeLint.Warning.Class
import MakeLint.Warning.Override
import MakeLint.Warning.Registry
import MakeLint.Watch
import MakeLint.Proofs.Path
import MakeLint.Proofs.FileTree.Directory
import MakeLint.Proofs.Config.Search
import MakeLint.Proofs.CommandLine
import MakeLint.Proofs.FileTree.Walk
import MakeLint.Proofs.Glob
import MakeLint.Proofs.Path.Order
import MakeLint.Proofs.Discovery
import MakeLint.Proofs.Text.Blank
import MakeLint.Proofs.Warning.Override
import MakeLint.Proofs.Line.Buffer
