import Cpl.Command.FileTree
import Cpl.Command.Host
import Cpl.Command.Invocation
import Cpl.Command.Operation
import Cpl.Command.Path
import Cpl.Command.Report
import Cpl.Compile
import Cpl.Decimal.Binary64
import Cpl.Decimal.Layout
import Cpl.Decimal.Shortest
import Cpl.Diagnostic
import Cpl.Journal
import Cpl.Lexeme
import Cpl.Literal
import Cpl.Main
import Cpl.Program
import Cpl.Program.Grammar
import Cpl.Program.Text
import Cpl.Proofs.Command.Hosts
import Cpl.Proofs.Command.Paths
import Cpl.Proofs.Command.Runs
import Cpl.Proofs.Compilation.Spacing
import Cpl.Proofs.Compilation.Text
import Cpl.Proofs.Decimal.Positional
import Cpl.Proofs.Decimal.Rounding
import Cpl.Proofs.Decimal.Shortest
import Cpl.Proofs.Diagnostic.Ranges
import Cpl.Proofs.Diagnostic.Rendering
import Cpl.Proofs.Diagnostic.Semantic
import Cpl.Proofs.Faults.Expressions
import Cpl.Proofs.Faults.Programs
import Cpl.Proofs.Faults.Statements
import Cpl.Proofs.Faults.Viability
import Cpl.Proofs.Grammar.Descent
import Cpl.Proofs.Grammar.Expressions
import Cpl.Proofs.Grammar.Literals
import Cpl.Proofs.Grammar.Phrase
import Cpl.Proofs.Grammar.Places
import Cpl.Proofs.Grammar.Programs
import Cpl.Proofs.Grammar.Progress
import Cpl.Proofs.Grammar.Readers
import Cpl.Proofs.Grammar.Statements
import Cpl.Proofs.Grammar.Yield
import Cpl.Proofs.Lexeme.Cover
import Cpl.Proofs.Lexeme.Joining
import Cpl.Proofs.Lexeme.Layout
import Cpl.Proofs.Lexeme.Longest
import Cpl.Proofs.Lexeme.Order
import Cpl.Proofs.Lexeme.Spelling
import Cpl.Proofs.Lexeme.Words
import Cpl.Proofs.Lowering.Behaviour
import Cpl.Proofs.Lowering.Complete
import Cpl.Proofs.Lowering.Counts
import Cpl.Proofs.Lowering.Direction
import Cpl.Proofs.Lowering.Emission
import Cpl.Proofs.Lowering.Exchange
import Cpl.Proofs.Lowering.Execution
import Cpl.Proofs.Lowering.Failure
import Cpl.Proofs.Lowering.Integers
import Cpl.Proofs.Lowering.Labels
import Cpl.Proofs.Lowering.Names
import Cpl.Proofs.Lowering.Numbering
import Cpl.Proofs.Lowering.Ownership
import Cpl.Proofs.Lowering.Parts
import Cpl.Proofs.Lowering.Recovery
import Cpl.Proofs.Lowering.Renaming
import Cpl.Proofs.Lowering.Simulation
import Cpl.Proofs.Lowering.Temporaries
import Cpl.Proofs.Lowering.Transport
import Cpl.Proofs.Lowering.Typing
import Cpl.Proofs.Lowering.Uniform
import Cpl.Proofs.Lowering.Writes
import Cpl.Proofs.Meaning.Evaluation
import Cpl.Proofs.Meaning.Machine
import Cpl.Proofs.Program.Constructs
import Cpl.Proofs.Program.Readability
import Cpl.Proofs.Program.Reading
import Cpl.Proofs.Program.Respelling
import Cpl.Proofs.Program.Wording
import Cpl.Proofs.Quad.Assigned
import Cpl.Proofs.Quad.Direction
import Cpl.Proofs.Quad.Flow
import Cpl.Proofs.Quad.Matching
import Cpl.Proofs.Quad.Renumbering
import Cpl.Proofs.Quad.Text
import Cpl.Proofs.Quad.Typed
import Cpl.Proofs.Scope.Allocation
import Cpl.Proofs.Scope.Declarations
import Cpl.Proofs.Scope.FirstDeclaration
import Cpl.Proofs.Scope.FreeIndices
import Cpl.Proofs.Source.Division
import Cpl.Proofs.Source.Lines
import Cpl.Proofs.Source.Slices
import Cpl.Quad
import Cpl.Quad.Lowering
import Cpl.Scalar
import Cpl.Scope
import Cpl.Source.Line
import Cpl.Source.Span
import Cpl.Text.Blank
import Cpl.Text.Hidden
import Cpl.Text.Quoted
import Cpl.Token
