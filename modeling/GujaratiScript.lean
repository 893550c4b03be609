import GujaratiScript.Main
import GujaratiScript.Proofs.Reading.Depth
import GujaratiScript.Proofs.Grammar.Completeness
import GujaratiScript.Proofs.Grammar.Soundness
import GujaratiScript.Proofs.Grammar.Acceptance
import GujaratiScript.Proofs.Spelling.Lexing
import GujaratiScript.Proofs.Layout.Tokens
import GujaratiScript.Proofs.Layout.Lexing
import GujaratiScript.Proofs.Layout.RoundTrip
import GujaratiScript.Proofs.Layout.Growth
import GujaratiScript.Proofs.Layout.Stability
import GujaratiScript.Proofs.Grammar.Height
import GujaratiScript.Proofs.Layout.Tallest
import GujaratiScript.Proofs.Run.Ensures
import GujaratiScript.Proofs.Run.Control
import GujaratiScript.Proofs.Scope.Bindings
import GujaratiScript.Proofs.Run.Scopes
import GujaratiScript.Proofs.Scope.Stack
import GujaratiScript.Proofs.Spelling.Reads
import GujaratiScript.Proofs.Spelling.Extent
import GujaratiScript.Proofs.Spelling.Writing
import GujaratiScript.Proofs.Source.Located
import GujaratiScript.Proofs.Spelling.Places
import GujaratiScript.Proofs.Reading.Places
import GujaratiScript.Proofs.Run.Places
import GujaratiScript.Proofs.Report.Positions
import GujaratiScript.Proofs.Run.Coupling
import GujaratiScript.Proofs.Run.Relabel
import GujaratiScript.Proofs.Layout.Behaviour
import GujaratiScript.Proofs.Scope.Renaming
import GujaratiScript.Proofs.Spelling.Breaks
import GujaratiScript.Proofs.Source.Fragments
import GujaratiScript.Proofs.Source.Entries
import GujaratiScript.Proofs.Run.Refusal
import GujaratiScript.Proofs.Spelling.Calls
import GujaratiScript.Proofs.Spelling.Words
import GujaratiScript.Proofs.Shell.Fences
import GujaratiScript.Proofs.Counting.Tally
import GujaratiScript.Proofs.Counting.Restoring
import GujaratiScript.Proofs.Counting.Moves
import GujaratiScript.Proofs.Reading.Frame
import GujaratiScript.Proofs.Recovery.Journal
import GujaratiScript.Proofs.Recovery.Growing
import GujaratiScript.Proofs.Recovery.Order
import GujaratiScript.Proofs.Recovery.Faults
import GujaratiScript.Proofs.Recovery.Progress
import GujaratiScript.Proofs.Recovery.FirstFault
import GujaratiScript.Proofs.Recovery.Halting
import GujaratiScript.Proofs.Recovery.Containment
import GujaratiScript.Proofs.Run.Evaluation
import GujaratiScript.Proofs.Source.Nested
import GujaratiScript.Proofs.Run.Composition
import GujaratiScript.Proofs.Run.Rounds
import GujaratiScript.Proofs.Run.Unread
import GujaratiScript.Proofs.Layout.Pieces
import GujaratiScript.Proofs.Layout.Parentheses
import GujaratiScript.Proofs.Number.Extended
import GujaratiScript.Proofs.Number.Machine
import GujaratiScript.Proofs.Value.Order
import GujaratiScript.Proofs.Value.Comparison
import GujaratiScript.Proofs.Value.Equality
import GujaratiScript.Proofs.Run.Integers
import GujaratiScript.Proofs.Source.Encoding
import GujaratiScript.Proofs.Shell.Tree
import GujaratiScript.Proofs.Shell.Sources
import GujaratiScript.Proofs.Shell.Formatting
import GujaratiScript.Proofs.Shell.Submission
import GujaratiScript.Proofs.Shell.Sessions
import GujaratiScript.Proofs.Shell.Dialogue
