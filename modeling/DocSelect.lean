import DocSelect.Selector.Equality
import DocSelect.Selector.Diagnostic
import DocSelect.Tree.Exchange
import DocSelect.Tree.Lift
import DocSelect.Query.Prune
import DocSelect.Markdown.Basic
import DocSelect.Readers
import DocSelect.Run.Arguments
import DocSelect.Run.Basic
import DocSelect.Main
import DocSelect.Proofs.Outcome
import DocSelect.Proofs.Formula
import DocSelect.Proofs.Formula.Grammar
import DocSelect.Proofs.Formula.Display
import DocSelect.Proofs.Formula.Overflow
import DocSelect.Proofs.Tree.Prune
import DocSelect.Proofs.Tree.Passes
import DocSelect.Proofs.Tree.Calls
import DocSelect.Proofs.Tree.Lift
import DocSelect.Proofs.Tree.Located
import DocSelect.Proofs.Tree.Contract
import DocSelect.Proofs.Query.Position
import DocSelect.Proofs.Query.Scene
import DocSelect.Proofs.Query.Waiting
import DocSelect.Proofs.Query.Trial
import DocSelect.Proofs.Query.Invariant
import DocSelect.Proofs.Query.Found
import DocSelect.Proofs.Query.FindAll
import DocSelect.Proofs.Query.FindFirst
import DocSelect.Proofs.Query.Room
import DocSelect.Proofs.Query.Depth
import DocSelect.Proofs.Query.Binding
import DocSelect.Proofs.Query.MatchesAt
import DocSelect.Proofs.Query.Below
import DocSelect.Proofs.Selector.Grammar
import DocSelect.Proofs.Selector.WellFormed
import DocSelect.Proofs.Selector.Escape
import DocSelect.Proofs.Selector.Spelling
import DocSelect.Proofs.Selector.ReadBack
import DocSelect.Proofs.Selector.RoundTrip
import DocSelect.Proofs.Selector.Soundness
import DocSelect.Proofs.Selector.Location
import DocSelect.Proofs.Selector.ErrorSpan
import DocSelect.Proofs.Selector.Operators
import DocSelect.Proofs.Selector.Restriction
import DocSelect.Proofs.Selector.Variables
import DocSelect.Proofs.Selector.Rephrasing
import DocSelect.Proofs.Selector.QuotedString
import DocSelect.Proofs.Selector.Lookahead
import DocSelect.Proofs.Selector.Shorthand
import DocSelect.Proofs.Query.Union
import DocSelect.Proofs.Query.Chained
import DocSelect.Proofs.Query.Brackets
import DocSelect.Proofs.Query.Locality
import DocSelect.Proofs.Query.Shorthand
import DocSelect.Proofs.Query.Prune
import DocSelect.Proofs.Run.Effects
import DocSelect.Proofs.Run.Modes
import DocSelect.Proofs.Query.Comparison
import DocSelect.Proofs.Text.Words
import DocSelect.Proofs.Query.Structural
import DocSelect.Proofs.Query.Visits
import DocSelect.Proofs.Query.Trace
import DocSelect.Proofs.Members
import DocSelect.Proofs.Json.Draft
import DocSelect.Proofs.Tree.Attributes
import DocSelect.Proofs.Tree.Exchange
import DocSelect.Proofs.Markdown.Conversion
import DocSelect.Proofs.Query.Tested
import DocSelect.Proofs.Selector.Repetition
import DocSelect.Proofs.Selector.Rounds
import DocSelect.Proofs.Selector.Progress
