import ProofSize.Files.Tree
import ProofSize.Main
import ProofSize.Proofs.Csv.Spelling
import ProofSize.Proofs.Csv.Padding
import ProofSize.Proofs.Columns
import ProofSize.Proofs.Digest
import ProofSize.Proofs.Text.Trim
import ProofSize.Proofs.Table.Cell
import ProofSize.Proofs.Table.Loading
import ProofSize.Proofs.Table.RoundTrip
import ProofSize.Proofs.Table.Extension
import ProofSize.Proofs.Table.Layout
import ProofSize.Proofs.Table.InvalidCell
import ProofSize.Proofs.Table.HeaderNames
import ProofSize.Proofs.Synthetic.Making
import ProofSize.Proofs.Synthetic.Depth
import ProofSize.Proofs.Synthetic.Rows
import ProofSize.Proofs.Synthetic.Failing
import ProofSize.Proofs.Synthetic.Seeds
import ProofSize.Proofs.Synthetic.Batches
import ProofSize.Proofs.Synthetic.Reportable
import ProofSize.Proofs.Size
import ProofSize.Proofs.Size.Totals
import ProofSize.Proofs.Size.Normalizing
import ProofSize.Proofs.Size.NormalizedSizes
import ProofSize.Proofs.Size.Reasons
import ProofSize.Proofs.Binary64.Nearest
import ProofSize.Proofs.Binary64.Distance
import ProofSize.Proofs.Binary64.Whole
import ProofSize.Proofs.View.Scenarios
import ProofSize.Proofs.View.Optimization
import ProofSize.Proofs.View.Breakdown
import ProofSize.Proofs.View.Scale
import ProofSize.Proofs.View.Shares
import ProofSize.Proofs.View.RoundedShares
import ProofSize.Proofs.View.Signatures
import ProofSize.Proofs.View.Independence
import ProofSize.Proofs.View.Summaries
import ProofSize.Proofs.View.Points
import ProofSize.Proofs.Files.Following
import ProofSize.Proofs.Files.Changing
import ProofSize.Proofs.Files.Running
import ProofSize.Proofs.Files.Listing
import ProofSize.Proofs.Files.Walking
import ProofSize.Proofs.Files.Trails
import ProofSize.Proofs.Files.Visiting
import ProofSize.Proofs.Files.Reaching
import ProofSize.Proofs.Files.Parents
import ProofSize.Proofs.Dataset
import ProofSize.Proofs.Inventory
import ProofSize.Proofs.Inventory.Complete
import ProofSize.Proofs.Inventory.Agreement
import ProofSize.Proofs.Inventory.Writing
import ProofSize.Proofs.Json.Grammar
import ProofSize.Proofs.Json.Unambiguity
import ProofSize.Proofs.Json.Numbers
import ProofSize.Proofs.Json.Printing
import ProofSize.Proofs.Json.Passing
import ProofSize.Proofs.Json.Reading
import ProofSize.Proofs.Config.Spelling
import ProofSize.Proofs.Config.Decoding
import ProofSize.Proofs.Report.Text
import ProofSize.Proofs.Report.Reading
import ProofSize.Proofs.Text.Words
import ProofSize.Proofs.Report.Lines
import ProofSize.Proofs.Report.Numbers
import ProofSize.Proofs.Command.Language
import ProofSize.Proofs.Command.Sorting
import ProofSize.Proofs.Command.Arguments
import ProofSize.Proofs.Command.Steps
import ProofSize.Proofs.Command.Pipeline
import ProofSize.Proofs.Command.Failing
