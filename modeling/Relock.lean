import Relock.Main
import Relock.Proofs.Path.Symbols
import Relock.Proofs.Path.Rerooting
import Relock.Proofs.Program.Stream
import Relock.Proofs.Sample
import Relock.Proofs.Search.Bound
import Relock.Proofs.Search.Chain
import Relock.Proofs.Search.Handover
import Relock.Proofs.Search.Identity
import Relock.Proofs.Search.Promotion
import Relock.Proofs.Search.Recursion
import Relock.Proofs.Search.Spelling
import Relock.Proofs.Symbol.Route
import Relock.Proofs.Text.Decimal
import Relock.Proofs.Tracking.Activations
import Relock.Proofs.Tracking.OwnCalls
import Relock.Proofs.Tracking.Findings
import Relock.Proofs.Tracking.Ownership
import Relock.Proofs.Tracking.Tree
import Relock.Proofs.Tracking.TwoLocks
import Relock.Yaml.Writer
import Relock.Proofs.Tracking.Counting
import Relock.Proofs.Program.Marks
import Relock.Proofs.Resolution.Body
import Relock.Proofs.Tracking.Widening
import Relock.Proofs.Resolution.Declaration
import Relock.Proofs.Resolution.Passes
import Relock.Proofs.Resolution.Program
import Relock.Proofs.Resolution.Selection
import Relock.Proofs.Tracking.Operations
import Relock.Proofs.Resolution.Coherence
import Relock.Proofs.Resolution.Functions
import Relock.Proofs.Callee.Key
import Relock.Proofs.Callee.Target
import Relock.Proofs.Callee.Declaration
import Relock.Proofs.Reading.Basic
import Relock.Proofs.Reading.Numbering
import Relock.Proofs.Program.Descent
import Relock.Proofs.Reading.Layout
import Relock.Proofs.Reading.Calls
import Relock.Proofs.Resolution.Scopes
import Relock.Proofs.Resolution.Housing
import Relock.Proofs.Resolution.WellFormed
import Relock.Proofs.Program.Parts
import Relock.Proofs.Resolution.Records
import Relock.Proofs.Resolution.Bindings
import Relock.Proofs.Search.Operation
import Relock.Proofs.Tracking.Returns
import Relock.Proofs.Tracking.Precedence
import Relock.Proofs.Unimported.Violations
import Relock.Proofs.Renaming.Composition
import Relock.Proofs.Reordering.Order
import Relock.Proofs.Reordering.Rounds
import Relock.Proofs.Reordering.Numbering
import Relock.Proofs.Reordering.Files
import Relock.Proofs.Reordering.Packages
import Relock.Proofs.Reordering.Values
import Relock.Proofs.Resolution.Imports
import Relock.Proofs.Closure.Renames
import Relock.Proofs.Closure.Range
import Relock.Proofs.Reordering.Resolution
import Relock.Proofs.Reordering.Violations
