import Bracket.Conventions
import Bracket.Double.Basic
import Bracket.Double.Shortest
import Bracket.Double.Text
import Bracket.Json.Basic
import Bracket.Json.Printer
import Bracket.Json.Reader
import Bracket.Lowering.Basic
import Bracket.Lowering.Context
import Bracket.Lowering.Error
import Bracket.Lowering.Guarded
import Bracket.Lowering.PackedReturn
import Bracket.Lowering.ProtectedCall
import Bracket.Outcome.Basic
import Bracket.Outcome.Codec
import Bracket.Outcome.Plan
import Bracket.Outcome.Trace
import Bracket.Proofs.Double.Decimals
import Bracket.Proofs.Double.Integers
import Bracket.Proofs.Double.Midpoints
import Bracket.Proofs.Double.Numerals
import Bracket.Proofs.Double.ReadBack
import Bracket.Proofs.Double.Rounding
import Bracket.Proofs.Evaluation.Basic
import Bracket.Proofs.Evaluation.Indexing
import Bracket.Proofs.Evaluation.Reading
import Bracket.Proofs.Evaluation.Unpacking
import Bracket.Proofs.Execution.Basic
import Bracket.Proofs.Execution.Completions
import Bracket.Proofs.Execution.Entry
import Bracket.Proofs.Execution.Frame
import Bracket.Proofs.Execution.Loops
import Bracket.Proofs.Execution.Packing
import Bracket.Proofs.Execution.Placement
import Bracket.Proofs.Execution.Related
import Bracket.Proofs.Execution.Run
import Bracket.Proofs.Execution.Simulation
import Bracket.Proofs.Execution.Steps
import Bracket.Proofs.Execution.Value
import Bracket.Proofs.Lowering.Capture
import Bracket.Proofs.Lowering.Congruence
import Bracket.Proofs.Lowering.Elimination
import Bracket.Proofs.Lowering.Exits
import Bracket.Proofs.Lowering.Expansion
import Bracket.Proofs.Lowering.Hygiene
import Bracket.Proofs.Lowering.Names
import Bracket.Proofs.Lowering.Nesting
import Bracket.Proofs.Lowering.Regions
import Bracket.Proofs.Lowering.Renumbering
import Bracket.Proofs.Lowering.Returns
import Bracket.Proofs.Lowering.Run
import Bracket.Proofs.Lowering.Scheduling
import Bracket.Proofs.Lowering.Suspension
import Bracket.Proofs.Lowering.Tokens
import Bracket.Proofs.Lowering.Violations
import Bracket.Proofs.Outcome.Composition
import Bracket.Proofs.Outcome.Nesting
import Bracket.Proofs.Outcome.ReleaseOrder
import Bracket.Proofs.Outcome.Scheduling
import Bracket.Proofs.Outcome.Suppression
import Bracket.Proofs.Refinement.CountingLoop
import Bracket.Proofs.Refinement.FailedBinding
import Bracket.Proofs.Refinement.Guarded
import Bracket.Proofs.Refinement.Holding
import Bracket.Proofs.Refinement.ProtectedCall
import Bracket.Proofs.Refinement.Separation
import Bracket.Proofs.Target.Brackets
import Bracket.Proofs.Target.Chunks
import Bracket.Proofs.Target.Closed
import Bracket.Proofs.Target.Comments
import Bracket.Proofs.Target.ControlFlow
import Bracket.Proofs.Target.Grouping
import Bracket.Proofs.Target.Jumps
import Bracket.Proofs.Target.Language
import Bracket.Proofs.Target.Lua
import Bracket.Proofs.Target.Mentions
import Bracket.Proofs.Target.Numbering
import Bracket.Proofs.Target.Operands
import Bracket.Proofs.Target.Patterns
import Bracket.Proofs.Target.Phrases
import Bracket.Proofs.Target.Printing
import Bracket.Proofs.Target.Python
import Bracket.Proofs.Target.Suites
import Bracket.Proofs.Target.TypeScript
import Bracket.Proofs.Text.Outline
import Bracket.Proofs.Text.Quoting
import Bracket.Proofs.Text.Suites
import Bracket.Proofs.Text.Writes
import Bracket.Proofs.Tree.Awaits
import Bracket.Proofs.Tree.Binding
import Bracket.Proofs.Tree.Equality
import Bracket.Proofs.Tree.Likeness
import Bracket.Proofs.Tree.Names
import Bracket.Proofs.Tree.Nodes
import Bracket.Proofs.Tree.NormalForm
import Bracket.Proofs.Tree.Renaming
import Bracket.Proofs.Tree.RoundTrip
import Bracket.Proofs.Tree.Scope
import Bracket.Proofs.Tree.Tokens
import Bracket.Proofs.Tree.Written
import Bracket.Settings
import Bracket.Target.Language
import Bracket.Target.Lua
import Bracket.Target.Python
import Bracket.Target.TypeScript
import Bracket.Target.Writer.Lua
import Bracket.Target.Writer.Python
import Bracket.Target.Writer.TypeScript
import Bracket.Text.Buffer
import Bracket.Text.CharacterClass
import Bracket.Text.Identifier
import Bracket.Text.Layout
import Bracket.Text.Parsing
import Bracket.Text.Quoted
import Bracket.Toml.Basic
import Bracket.Toml.Document
import Bracket.Toml.Scalar
import Bracket.Tree.Basic
import Bracket.Tree.Binding
import Bracket.Tree.Decode
import Bracket.Tree.Encode
import Bracket.Tree.Equality
import Bracket.Tree.Likeness
import Bracket.Tree.Pattern
import Bracket.Tree.Recipe
