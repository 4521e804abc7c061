import Gridded.Convention.Registry
import Gridded.Input.Buffered
import Gridded.Survey
import Gridded.Proofs.Convention.Cut
import Gridded.Proofs.Convention.Parameters
import Gridded.Effect
import Gridded.Proofs.Grid.Independence
import Gridded.Proofs.Grid.Orders
import Gridded.Proofs.Grid.Shape
import Gridded.Proofs.Input.Faithful
import Gridded.Proofs.Input.Window
import Gridded.Proofs.Reader.Accounting
import Gridded.Proofs.Reader.Block
import Gridded.Proofs.Reader.Extraction
import Gridded.Proofs.Reader.History
import Gridded.Proofs.Reader.Seeks
import Gridded.Proofs.Reader.Whole
import Gridded.Proofs.Region.Acceptance
import Gridded.Proofs.Region.Declared
import Gridded.Proofs.Region.Index
import Gridded.Proofs.Region.MaximalRuns
import Gridded.Proofs.Region.Selection
import Gridded.Proofs.Region.Whole
import Gridded.Proofs.Input.Recovery
import Gridded.Proofs.Region.Extent
import Gridded.Proofs.Reader.Success
import Gridded.Proofs.Reader.Overflow
import Gridded.Proofs.Region.Overlong
import Gridded.Proofs.Reader.Overlong
import Gridded.Proofs.Reader.Requests
import Gridded.Proofs.Reader.InWords
import Gridded.Proofs.Outcome
import Gridded.Proofs.Number.Order
import Gridded.Proofs.Convention.ValidRange
import Gridded.Proofs.Convention.Packing
import Gridded.Proofs.Grid.Axes
import Gridded.Proofs.Grid.Listing
import Gridded.Proofs.Grid.Reordering
import Gridded.Proofs.Grid.Memo
import Gridded.Proofs.Binary.Conversion
import Gridded.Proofs.Convention.Nodata
import Gridded.Proofs.Number.Comparison
import Gridded.Proofs.Number.Integers
import Gridded.Proofs.Number.Preservation
import Gridded.Proofs.Region.Faults
import Gridded.Proofs.Region.Skips
import Gridded.Proofs.Convention.NodataHistory
import Gridded.Proofs.Convention.Selection
