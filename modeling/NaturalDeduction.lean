import NaturalDeduction.Checker.Client
import NaturalDeduction.Checker.Connection
import NaturalDeduction.Checker.Frame
import NaturalDeduction.Checker.Machine
import NaturalDeduction.Checker.Message
import NaturalDeduction.Checker.Request
import NaturalDeduction.Checker.Server
import NaturalDeduction.Checker.Verdict
import NaturalDeduction.Command.Invocation
import NaturalDeduction.Command.Run
import NaturalDeduction.Command.Saving
import NaturalDeduction.Decimal.Shortest
import NaturalDeduction.Document.Basic
import NaturalDeduction.Document.Encoding
import NaturalDeduction.File.Failure
import NaturalDeduction.Json.Basic
import NaturalDeduction.Json.Decode
import NaturalDeduction.Json.Numeral
import NaturalDeduction.Json.Printer
import NaturalDeduction.Json.Reader
import NaturalDeduction.Layout.Basic
import NaturalDeduction.Layout.BlockTable
import NaturalDeduction.Layout.Failure
import NaturalDeduction.Layout.Scope
import NaturalDeduction.Main
import NaturalDeduction.Proof.Ascending
import NaturalDeduction.Proof.Basic
import NaturalDeduction.Proof.Clock
import NaturalDeduction.Proof.Edit
import NaturalDeduction.Proof.Event
import NaturalDeduction.Proof.Index
import NaturalDeduction.Proof.Line
import NaturalDeduction.Proof.Live
import NaturalDeduction.Proof.Mark
import NaturalDeduction.Proof.Operation
import NaturalDeduction.Proof.Rearrange
import NaturalDeduction.Proof.Timers
import NaturalDeduction.Proof.Verify
import NaturalDeduction.Proof.View
import NaturalDeduction.Proof.Visits
import NaturalDeduction.Proofs.Checker.Arrival
import NaturalDeduction.Proofs.Checker.Exchange
import NaturalDeduction.Proofs.Checker.Framing
import NaturalDeduction.Proofs.Checker.Head
import NaturalDeduction.Proofs.Checker.Loading
import NaturalDeduction.Proofs.Checker.Machine
import NaturalDeduction.Proofs.Checker.Messages
import NaturalDeduction.Proofs.Checker.Refusal
import NaturalDeduction.Proofs.Checker.Serving
import NaturalDeduction.Proofs.Clock.Debounce
import NaturalDeduction.Proofs.Clock.Elapsing
import NaturalDeduction.Proofs.Clock.Evolution
import NaturalDeduction.Proofs.Clock.Following
import NaturalDeduction.Proofs.Clock.History
import NaturalDeduction.Proofs.Clock.Order
import NaturalDeduction.Proofs.Clock.Slots
import NaturalDeduction.Proofs.Clock.Stamps
import NaturalDeduction.Proofs.Clock.Tracking
import NaturalDeduction.Proofs.Command.Filling
import NaturalDeduction.Proofs.Document.Construction
import NaturalDeduction.Proofs.Document.Decoding
import NaturalDeduction.Proofs.Document.Edits
import NaturalDeduction.Proofs.Document.Encoding
import NaturalDeduction.Proofs.Document.Interchange
import NaturalDeduction.Proofs.Document.Stored
import NaturalDeduction.Proofs.Document.Validity
import NaturalDeduction.Proofs.Goal.Collecting
import NaturalDeduction.Proofs.Goal.Derivation
import NaturalDeduction.Proofs.Goal.Reached
import NaturalDeduction.Proofs.Goal.Soundness
import NaturalDeduction.Proofs.Json.Canonical
import NaturalDeduction.Proofs.Json.Extent
import NaturalDeduction.Proofs.Json.Grammar
import NaturalDeduction.Proofs.Json.RoundTrip
import NaturalDeduction.Proofs.Json.Scalar
import NaturalDeduction.Proofs.Layout.BlockTable
import NaturalDeduction.Proofs.Layout.Blocks
import NaturalDeduction.Proofs.Layout.Edit
import NaturalDeduction.Proofs.Layout.InForce
import NaturalDeduction.Proofs.Layout.Nesting
import NaturalDeduction.Proofs.Layout.Pass
import NaturalDeduction.Proofs.Layout.Seam
import NaturalDeduction.Proofs.Layout.Splice
import NaturalDeduction.Proofs.Layout.Subproof
import NaturalDeduction.Proofs.Layout.Tree
import NaturalDeduction.Proofs.Layout.Views
import NaturalDeduction.Proofs.Rule.Availability
import NaturalDeduction.Proofs.Rule.Licence
import NaturalDeduction.Proofs.Rule.PremiseOrder
import NaturalDeduction.Proofs.Rule.Quantifier
import NaturalDeduction.Proofs.Rule.Soundness
import NaturalDeduction.Proofs.Rule.Suggestion
import NaturalDeduction.Proofs.Rule.TruthFunctional
import NaturalDeduction.Proofs.Sentence.Grammar
import NaturalDeduction.Proofs.Sentence.Instances
import NaturalDeduction.Proofs.Sentence.Interpretation
import NaturalDeduction.Proofs.Sentence.Lexeme
import NaturalDeduction.Proofs.Sentence.Location
import NaturalDeduction.Proofs.Sentence.Parentheses
import NaturalDeduction.Proofs.Sentence.Phrase
import NaturalDeduction.Proofs.Sentence.Reading
import NaturalDeduction.Proofs.Sentence.Rejection
import NaturalDeduction.Proofs.Sentence.RoundTrip
import NaturalDeduction.Proofs.Sentence.Spacing
import NaturalDeduction.Proofs.Sentence.Spelling
import NaturalDeduction.Proofs.Sentence.Squeezed
import NaturalDeduction.Proofs.Sentence.Substitution
import NaturalDeduction.Proofs.Sentence.Symbolwise
import NaturalDeduction.Proofs.Sentence.Valuation
import NaturalDeduction.Proofs.Sentence.Viable
import NaturalDeduction.Proofs.Store.Agreement
import NaturalDeduction.Proofs.Store.Announcement
import NaturalDeduction.Proofs.Store.Arena
import NaturalDeduction.Proofs.Store.Atomicity
import NaturalDeduction.Proofs.Store.Carried
import NaturalDeduction.Proofs.Store.Change
import NaturalDeduction.Proofs.Store.Content
import NaturalDeduction.Proofs.Store.Counting
import NaturalDeduction.Proofs.Store.Identity
import NaturalDeduction.Proofs.Store.Ledger
import NaturalDeduction.Proofs.Store.Listener
import NaturalDeduction.Proofs.Store.Loaded
import NaturalDeduction.Proofs.Store.Performed
import NaturalDeduction.Proofs.Store.Placing
import NaturalDeduction.Proofs.Store.Preservation
import NaturalDeduction.Proofs.Store.Replay
import NaturalDeduction.Proofs.Store.Represented
import NaturalDeduction.Proofs.Store.Simulation
import NaturalDeduction.Proofs.Store.Stated
import NaturalDeduction.Proofs.Store.Stepwise
import NaturalDeduction.Proofs.Store.Structure
import NaturalDeduction.Proofs.Store.Tables
import NaturalDeduction.Proofs.Store.WellFormed
import NaturalDeduction.Proofs.Success
import NaturalDeduction.Proofs.Text.Expansion
import NaturalDeduction.Proofs.Verdict.Condition
import NaturalDeduction.Proofs.Verdict.Finding
import NaturalDeduction.Proofs.Verdict.Fresh
import NaturalDeduction.Proofs.Verdict.Judgement
import NaturalDeduction.Proofs.Verdict.LineNumbers
import NaturalDeduction.Proofs.Verdict.Moved
import NaturalDeduction.Proofs.Verdict.Order
import NaturalDeduction.Proofs.Verdict.Rearranged
import NaturalDeduction.Proofs.Verdict.Requirements
import NaturalDeduction.Proofs.Verdict.Reset
import NaturalDeduction.Proofs.Verdict.Staleness
import NaturalDeduction.Proofs.Verdict.Truthful
import NaturalDeduction.Proofs.Verdict.Upkeep
import NaturalDeduction.Proofs.Verdict.Visits
import NaturalDeduction.Proofs.Word.Trapping
import NaturalDeduction.Report
import NaturalDeduction.Rule.Basic
import NaturalDeduction.Rule.Check
import NaturalDeduction.Rule.Claim
import NaturalDeduction.Rule.Conclusions
import NaturalDeduction.Rule.Suggest
import NaturalDeduction.Rule.Violation
import NaturalDeduction.Sentence.Basic
import NaturalDeduction.Sentence.Failure
import NaturalDeduction.Sentence.Instance
import NaturalDeduction.Sentence.Order
import NaturalDeduction.Sentence.Printer
import NaturalDeduction.Sentence.Reader
import NaturalDeduction.Sentence.Token
import NaturalDeduction.Settings.Basic
import NaturalDeduction.Settings.Document
import NaturalDeduction.Store.Arena
import NaturalDeduction.Store.Edit
import NaturalDeduction.Text.Blank
import NaturalDeduction.Text.Expansion
import NaturalDeduction.Text.Hexadecimal
import NaturalDeduction.Text.Numeral
import NaturalDeduction.Text.Quoted
import NaturalDeduction.Text.Slicing
import NaturalDeduction.Text.Span
import NaturalDeduction.Text.Utf8
import NaturalDeduction.Toml.Basic
import NaturalDeduction.Toml.Definition
import NaturalDeduction.Toml.Moment
import NaturalDeduction.Toml.Quoted
import NaturalDeduction.Toml.Reader
import NaturalDeduction.Toml.Scalar
import NaturalDeduction.Word.Trap
