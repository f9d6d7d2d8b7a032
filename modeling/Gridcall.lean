import Gridcall.Call.Stub
import Gridcall.Host.Equality
import Gridcall.Json.Managed
import Gridcall.Main
import Gridcall.Marshal.RoundTrip
import Gridcall.Proofs.Heap.History
import Gridcall.Proofs.Marshal.Resolution
import Gridcall.Proofs.Number.Exact
import Gridcall.Proofs.Marshal.Defaults
import Gridcall.Proofs.Marshal.OnHeap
import Gridcall.Proofs.Host.Grid
import Gridcall.Proofs.Marshal.Cells
import Gridcall.Proofs.Marshal.Items
import Gridcall.Proofs.Marshal.Narrowing
import Gridcall.Proofs.Marshal.Soundness
import Gridcall.Proofs.Heap.Growth
import Gridcall.Proofs.Marshal.Portable
import Gridcall.Proofs.Marshal.RoundTrip
import Gridcall.Proofs.Host.Sameness
import Gridcall.Proofs.Marshal.ClaimedClass
import Gridcall.Proofs.Heap.Minting
import Gridcall.Proofs.Marshal.Steps
import Gridcall.Proofs.Marshal.Written
import Gridcall.Proofs.Call.Stages
import Gridcall.Proofs.Call.FailedResult
import Gridcall.Proofs.Call.Registration
import Gridcall.Proofs.Call.Receiver
import Gridcall.Proofs.Call.Unaffected
import Gridcall.Proofs.Json.RoundTrip
import Gridcall.Proofs.Host.Shape
import Gridcall.Proofs.Json.Accepted
import Gridcall.Proofs.Host.Digest
import Gridcall.Proofs.Marshal.StandardPicks
import Gridcall.Proofs.Script.Runs
import Gridcall.Proofs.Call.Arguments
import Gridcall.Proofs.Marshal.Sequences
import Gridcall.Proofs.Marshal.ArrayShape
import Gridcall.Proofs.Call.Overloads
import Gridcall.Proofs.Number.Rounding
import Gridcall.Proofs.Number.Decimal
import Gridcall.Proofs.Number.Spelling
import Gridcall.Proofs.Marshal.IntegerText
import Gridcall.Proofs.Marshal.SingleRange
import Gridcall.Proofs.Number.Neighbours
import Gridcall.Proofs.Number.ShortDecimals
import Gridcall.Proofs.Number.TwoRoundings
import Gridcall.Proofs.Marshal.SingleText
import Gridcall.Proofs.Number.Whole
import Gridcall.Proofs.Marshal.IntegerRange
import Gridcall.Proofs.Marshal.LongNumbers
import Gridcall.Proofs.Host.HandleText
import Gridcall.Proofs.Call.SpelledHandles
import Gridcall.Proofs.Call.LookUps
import Gridcall.Proofs.Sample.Transpose
import Gridcall.Proofs.Sample.Construct
import Gridcall.Proofs.Call.HostList
import Gridcall.Proofs.Managed.Order
import Gridcall.Proofs.Script.Arguments
import Gridcall.Proofs.Managed.Widening
