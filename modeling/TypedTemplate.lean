import TypedTemplate.Engine.Basic
import TypedTemplate.Schema.Reader
import TypedTemplate.Proofs.Execution.Tiers
import TypedTemplate.Proofs.Engine.History
import TypedTemplate.Proofs.Analysis.Scopes
import TypedTemplate.Proofs.Analysis.Calls
import TypedTemplate.Proofs.Piece.Partition
import TypedTemplate.Proofs.Program.Acceptance
import TypedTemplate.Proofs.Analysis.PassThrough
import TypedTemplate.Proofs.Source.Position
import TypedTemplate.Proofs.Source.Tokens
import TypedTemplate.Proofs.Program.Positions
import TypedTemplate.Proofs.Analysis.Congruence
import TypedTemplate.Proofs.Execution.Dependence
import TypedTemplate.Proofs.Engine.Trees
import TypedTemplate.Proofs.Cache.Recency
import TypedTemplate.Proofs.Analysis.Textual
import TypedTemplate.Proofs.Program.Contents
import TypedTemplate.Proofs.Execution.Brackets
import TypedTemplate.Proofs.Token.Quoting
import TypedTemplate.Proofs.Execution.Strings
import TypedTemplate.Proofs.Execution.Parentheses
import TypedTemplate.Proofs.Execution.PlainText
import TypedTemplate.Proofs.Schema.Types
import TypedTemplate.Proofs.Analysis.References
import TypedTemplate.Proofs.Execution.TextSplit
import TypedTemplate.Proofs.Analysis.Selectors
import TypedTemplate.Proofs.Analysis.Joining
import TypedTemplate.Proofs.Schema.Misses
import TypedTemplate.Proofs.Analysis.Detection
import TypedTemplate.Proofs.Execution.RoundTrip
import TypedTemplate.Proofs.Number.Arithmetic
import TypedTemplate.Proofs.Number.Comparison
import TypedTemplate.Proofs.Execution.Swapping
import TypedTemplate.Proofs.Execution.Spellings
import TypedTemplate.Proofs.Analysis.Order
import TypedTemplate.Proofs.Helper.Demands
import TypedTemplate.Proofs.Schema.RoundTrip
import TypedTemplate.Proofs.Path.Identifier
import TypedTemplate.Proofs.Source.Lines
import TypedTemplate.Proofs.Value.Text
