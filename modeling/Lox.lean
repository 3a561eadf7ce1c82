import Lox.Bindings
import Lox.Command
import Lox.Decimal.Binary
import Lox.Decimal.Shortest
import Lox.Error
import Lox.Evaluation
import Lox.Interpreter
import Lox.Main
import Lox.Number
import Lox.Proofs.Computation
import Lox.Proofs.Dead.Memory
import Lox.Proofs.Dead.Places
import Lox.Proofs.Dead.Pruning
import Lox.Proofs.Dead.Replacing
import Lox.Proofs.Dead.Running
import Lox.Proofs.Dead.Splicing
import Lox.Proofs.Decimal.Doubles
import Lox.Proofs.Decimal.Rounding
import Lox.Proofs.Joining.Lexing
import Lox.Proofs.Joining.Parsing
import Lox.Proofs.Joining.Spelling
import Lox.Proofs.Label.Carrying
import Lox.Proofs.Label.Erasing
import Lox.Proofs.Label.Moving
import Lox.Proofs.Label.Places
import Lox.Proofs.Label.Reading
import Lox.Proofs.Label.Relabeling
import Lox.Proofs.Label.Renumbering
import Lox.Proofs.Label.Resolving
import Lox.Proofs.Label.Running
import Lox.Proofs.Label.Spacing
import Lox.Proofs.Layout.Boundaries
import Lox.Proofs.Layout.Expressions
import Lox.Proofs.Layout.Laying
import Lox.Proofs.Layout.Lexemes
import Lox.Proofs.Layout.Nesting
import Lox.Proofs.Layout.Nodes
import Lox.Proofs.Layout.Ordering
import Lox.Proofs.Layout.Reports
import Lox.Proofs.Layout.Statements
import Lox.Proofs.Layout.Tree
import Lox.Proofs.Lexical.Declarations
import Lox.Proofs.Lexical.Evaluation
import Lox.Proofs.Lexical.Expressions
import Lox.Proofs.Lexical.Parallel
import Lox.Proofs.Lexical.Refinement
import Lox.Proofs.Lexical.Related
import Lox.Proofs.Lexical.Represents
import Lox.Proofs.Lexical.Simulation
import Lox.Proofs.Lexical.Statements
import Lox.Proofs.Lexical.Values
import Lox.Proofs.Lexical.World
import Lox.Proofs.Lexing.Exchange
import Lox.Proofs.Lexing.Grouping
import Lox.Proofs.Lexing.Patterns
import Lox.Proofs.Lexing.Reporting
import Lox.Proofs.Lexing.Scanning
import Lox.Proofs.Lexing.Separators
import Lox.Proofs.Lexing.Slices
import Lox.Proofs.Lexing.Tokenization
import Lox.Proofs.Output.Breaking
import Lox.Proofs.Output.Cut
import Lox.Proofs.Output.Limit
import Lox.Proofs.Renaming.Agreement
import Lox.Proofs.Renaming.Invariance
import Lox.Proofs.Renaming.Lexing
import Lox.Proofs.Renaming.Memory
import Lox.Proofs.Renaming.Mentions
import Lox.Proofs.Renaming.Parsing
import Lox.Proofs.Renaming.References
import Lox.Proofs.Renaming.Resolving
import Lox.Proofs.Renaming.Running
import Lox.Proofs.Renaming.Trees
import Lox.Proofs.Report.Isolation
import Lox.Proofs.Run.Access
import Lox.Proofs.Run.Agreement
import Lox.Proofs.Run.Chains
import Lox.Proofs.Run.Confinement
import Lox.Proofs.Run.Executions
import Lox.Proofs.Run.ExpressionSoundness
import Lox.Proofs.Run.Fuel
import Lox.Proofs.Run.Halting
import Lox.Proofs.Run.Identity
import Lox.Proofs.Run.Initializers
import Lox.Proofs.Run.Making
import Lox.Proofs.Run.Parts
import Lox.Proofs.Run.Phases
import Lox.Proofs.Run.Plans
import Lox.Proofs.Run.Returning
import Lox.Proofs.Run.Soundness
import Lox.Proofs.Run.StatementSoundness
import Lox.Proofs.Run.Tracing
import Lox.Proofs.Run.Unwinding
import Lox.Proofs.Run.Validity
import Lox.Proofs.Scope.Balance
import Lox.Proofs.Scope.Findings
import Lox.Proofs.Scope.Numbering
import Lox.Proofs.Scope.Occurrences
import Lox.Proofs.Scope.Sites
import Lox.Proofs.Scope.Table
import Lox.Proofs.Scope.Walk
import Lox.Proofs.Session.Keeping
import Lox.Proofs.Session.Merging
import Lox.Proofs.Session.Reuse
import Lox.Proofs.Store.Forest
import Lox.Proofs.Store.Lookup
import Lox.Proofs.Store.Parents
import Lox.Proofs.Sugar.Expressions
import Lox.Proofs.Sugar.Loops
import Lox.Proofs.Sugar.Places
import Lox.Proofs.Sugar.Running
import Lox.Proofs.Sugar.Statements
import Lox.Proofs.Syntax.Allotment
import Lox.Proofs.Syntax.Arrival
import Lox.Proofs.Syntax.Assignments
import Lox.Proofs.Syntax.Counting
import Lox.Proofs.Syntax.DanglingElse
import Lox.Proofs.Syntax.ExpressionForms
import Lox.Proofs.Syntax.ExpressionSentences
import Lox.Proofs.Syntax.Grammar
import Lox.Proofs.Syntax.Identifiers
import Lox.Proofs.Syntax.Keywords
import Lox.Proofs.Syntax.Paths
import Lox.Proofs.Syntax.Positions
import Lox.Proofs.Syntax.Progress
import Lox.Proofs.Syntax.Recognition
import Lox.Proofs.Syntax.Recovery
import Lox.Proofs.Syntax.StatementForms
import Lox.Proofs.Syntax.StatementSentences
import Lox.Proofs.Syntax.Steps
import Lox.Proofs.Syntax.Termination
import Lox.Proofs.Syntax.Trails
import Lox.Proofs.Syntax.Walking
import Lox.Report.Diagnostics
import Lox.Report.Notice
import Lox.Report.Snippet
import Lox.Resolution
import Lox.Sink
import Lox.Span
import Lox.Store
import Lox.Text.Blank
import Lox.Text.CodeRange
import Lox.Text.Combining
import Lox.Text.Line
import Lox.Text.Printable
import Lox.Text.Quoted
import Lox.Text.Slice
import Lox.Text.Width
import Lox.Token
import Lox.Token.Lexer
import Lox.Token.Piece
import Lox.Tree
import Lox.Tree.Cursor
import Lox.Tree.Level
import Lox.Tree.Parser
import Lox.Value
