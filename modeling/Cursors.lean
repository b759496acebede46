import Cursors.Release.Constant
import Cursors.Workspace.Script
import Cursors.Proofs.Cursor
import Cursors.Proofs.Bench
import Cursors.Proofs.ListFilter.Search
import Cursors.Proofs.Filter.Removal
import Cursors.Proofs.Transform.Removal
import Cursors.Proofs.ListFilter.Edits
import Cursors.Proofs.ListFilter.Navigation
import Cursors.Proofs.ListFilter.Index
import Cursors.Proofs.ListFilter.Atomic
import Cursors.Proofs.Merge.Rows
import Cursors.Proofs.Merge.Shelf
import Cursors.Proofs.Merge.Stable
import Cursors.Proofs.Feed
import Cursors.Proofs.Merge.Account
import Cursors.Proofs.Buffer.Mirror
import Cursors.Proofs.Leaf
import Cursors.Proofs.Flatten.Forest
import Cursors.Proofs.Flatten.Orchard
import Cursors.Proofs.Flatten.Grove
import Cursors.Proofs.Flatten.Traversal
import Cursors.Proofs.Pipeline.Links
import Cursors.Proofs.Pipeline.Net
import Cursors.Proofs.Pipeline.Denotation
import Cursors.Proofs.Part
import Cursors.Proofs.Ring.Round
import Cursors.Proofs.Ring.Circle
import Cursors.Proofs.Ring.Rink
import Cursors.Proofs.After
import Cursors.Proofs.Ending.Course
import Cursors.Proofs.Ending.Node
import Cursors.Proofs.Ending.Overlay
import Cursors.Proofs.Ending.Chain
import Cursors.Proofs.Ending.Merge
import Cursors.Proofs.Ending.Flatten
import Cursors.Proofs.Ending.Assembly
import Cursors.Proofs.Ending.Lasting
import Cursors.Proofs.Ending.Exhaustion
import Cursors.Proofs.Composite.Mode
import Cursors.Proofs.Composite.Delivery
import Cursors.Proofs.Chain.Removal
import Cursors.Proofs.Conversion.Lookup
import Cursors.Proofs.Conversion.Total
import Cursors.Proofs.Machine
import Cursors.Proofs.Merge.Stock
import Cursors.Proofs.Merge.Removal
import Cursors.Proofs.Chain.Order
import Cursors.Proofs.Chain.Row
import Cursors.Proofs.Chain.Splice
import Cursors.Proofs.Chain.Plan
import Cursors.Proofs.Filter.Sifting
import Cursors.Proofs.Editing
import Cursors.Proofs.Window.Pane
import Cursors.Proofs.Window.Slice
import Cursors.Proofs.Footing
import Cursors.Proofs.Text.Pattern
import Cursors.Proofs.Release.Grammar
import Cursors.Proofs.Lending.Loan
import Cursors.Proofs.Lending.View
import Cursors.Proofs.Lookahead
import Cursors.Proofs.Release.Rewriting
import Cursors.Proofs.Tandem.Leaf
import Cursors.Proofs.Lending.Protection
