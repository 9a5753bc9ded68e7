import GuardedRepl.Access
import GuardedRepl.Audit
import GuardedRepl.Capture
import GuardedRepl.CommandLine.Arguments
import GuardedRepl.CommandLine.Failure
import GuardedRepl.CommandLine.Program
import GuardedRepl.CommandLine.Shell
import GuardedRepl.Config.Basic
import GuardedRepl.Config.Error
import GuardedRepl.Config.Load
import GuardedRepl.Config.Setting
import GuardedRepl.Engine
import GuardedRepl.Evaluator
import GuardedRepl.Files.Path
import GuardedRepl.Files.Tree
import GuardedRepl.Library.Class
import GuardedRepl.Library.Member
import GuardedRepl.Machine.Basic
import GuardedRepl.Machine.Call
import GuardedRepl.Machine.Exec
import GuardedRepl.Policy.Filter
import GuardedRepl.Policy.Sandbox
import GuardedRepl.Program.Finding
import GuardedRepl.Program.Resolve
import GuardedRepl.Program.Tree
import GuardedRepl.Reply
import GuardedRepl.Session.Engine
import GuardedRepl.Session.Interpreter
import GuardedRepl.Session.State
import GuardedRepl.Snippet
import GuardedRepl.Source.Comment
import GuardedRepl.Source.Fault
import GuardedRepl.Source.Fragment
import GuardedRepl.Source.Lexer
import GuardedRepl.Source.Span
import GuardedRepl.Source.Token
import GuardedRepl.Syntax.Operator
import GuardedRepl.Syntax.Parser
import GuardedRepl.Syntax.Tree
import GuardedRepl.Text.Alphanumeric
import GuardedRepl.Text.Blank
import GuardedRepl.Text.LetterCase
import GuardedRepl.Text.Numeral
import GuardedRepl.Text.Quoted
import GuardedRepl.Text.Ranges
import GuardedRepl.Text.Search
import GuardedRepl.Text.Utf8
import GuardedRepl.Text.Visible
import GuardedRepl.Toml.Decimal
import GuardedRepl.Toml.Parser
import GuardedRepl.Toml.Scalar
import GuardedRepl.Toml.Value
import GuardedRepl.Value.Basic
import GuardedRepl.Value.Exception
import GuardedRepl.Value.Operation
import GuardedRepl.Value.Strings
import GuardedRepl.Value.Typing
import GuardedRepl.Watchdog
import GuardedRepl.Main
import GuardedRepl.Proofs.Machine.Arithmetic
import GuardedRepl.Proofs.Machine.Assembly
import GuardedRepl.Proofs.Machine.Ending
import GuardedRepl.Proofs.Machine.Weaving
import GuardedRepl.Proofs.Machine.Programs
import GuardedRepl.Proofs.Machine.Lockstep
import GuardedRepl.Proofs.Session.Fragments
import GuardedRepl.Proofs.Session.Denial
import GuardedRepl.Proofs.Session.Cancellation
import GuardedRepl.Proofs.Program.Scope
import GuardedRepl.Proofs.Machine.Confinement
import GuardedRepl.Proofs.Machine.Fitting
import GuardedRepl.Proofs.Machine.Visits
import GuardedRepl.Proofs.Session.Resolution
import GuardedRepl.Proofs.Session.Capabilities
import GuardedRepl.Proofs.Machine.Triple
import GuardedRepl.Proofs.Machine.Frames
import GuardedRepl.Proofs.Text.Utf8
import GuardedRepl.Proofs.Machine.Assignment
import GuardedRepl.Proofs.Machine.Padding
import GuardedRepl.Proofs.Machine.Loops
import GuardedRepl.Proofs.Capture
import GuardedRepl.Proofs.Syntax.Reading
import GuardedRepl.Proofs.Syntax.Nesting
import GuardedRepl.Proofs.Evaluator.LifeCycle
import GuardedRepl.Proofs.Source.Lexeme
import GuardedRepl.Proofs.Source.Scanning
import GuardedRepl.Proofs.Source.Trimming
import GuardedRepl.Proofs.Source.Fragments
import GuardedRepl.Proofs.Text.Sizes
import GuardedRepl.Proofs.Machine.Short
import GuardedRepl.Proofs.Machine.Calls
import GuardedRepl.Proofs.Machine.Upkeep
import GuardedRepl.Proofs.Session.Course
import GuardedRepl.Proofs.Session.Typing
import GuardedRepl.Proofs.Source.Words
import GuardedRepl.Proofs.Source.Division
import GuardedRepl.Proofs.Source.Comments
import GuardedRepl.Proofs.Syntax.Brackets
import GuardedRepl.Proofs.Syntax.Taking
import GuardedRepl.Proofs.Syntax.Shape
import GuardedRepl.Proofs.Syntax.Twins
import GuardedRepl.Proofs.Syntax.Snippets
import GuardedRepl.Proofs.Program.Literals
import GuardedRepl.Proofs.Machine.Strings
import GuardedRepl.Proofs.Source.Sizes
import GuardedRepl.Proofs.Session.Strings
import GuardedRepl.Proofs.Session.History
import GuardedRepl.Proofs.Session.Ownership
import GuardedRepl.Proofs.Session.Interruption
import GuardedRepl.Proofs.Source.Places
import GuardedRepl.Proofs.Program.Places
import GuardedRepl.Proofs.Session.Diagnostics
import GuardedRepl.Proofs.Session.Batching
import GuardedRepl.Proofs.Session.Completion
import GuardedRepl.Proofs.Session.Accounting
import GuardedRepl.Proofs.Evaluator.Completeness
import GuardedRepl.Proofs.Source.Rendered
import GuardedRepl.Proofs.Session.Rendering
import GuardedRepl.Proofs.Source.Tiling
import GuardedRepl.Proofs.Source.Uncut
import GuardedRepl.Proofs.Source.Decomposition
import GuardedRepl.Proofs.Text.Json
import GuardedRepl.Proofs.Text.Pieces
import GuardedRepl.Proofs.Policy.Matching
import GuardedRepl.Proofs.Policy.Scoping
import GuardedRepl.Proofs.Evaluator.AuditTrail
import GuardedRepl.Proofs.CommandLine.AuditFile
import GuardedRepl.Proofs.Syntax.Printing
import GuardedRepl.Proofs.Syntax.Giving
import GuardedRepl.Proofs.Syntax.Inversion
import GuardedRepl.Proofs.Text.Cuts
import GuardedRepl.Proofs.Reply
import GuardedRepl.Proofs.Text.Search
import GuardedRepl.Proofs.Value.Arithmetic
import GuardedRepl.Proofs.Value.Strings
import GuardedRepl.Proofs.Watchdog
import GuardedRepl.Proofs.Config.BlockLists
import GuardedRepl.Proofs.Config.Effective
import GuardedRepl.Proofs.Syntax.Descent
import GuardedRepl.Proofs.Syntax.Following
import GuardedRepl.Proofs.Syntax.Balance
