import TupleWire.Text.Quoted
import TupleWire.Fault
import TupleWire.Cell
import TupleWire.Column
import TupleWire.Frame.Buffer
import TupleWire.Frame.Composition
import TupleWire.Value
import TupleWire.Message
import TupleWire.Frame.Program
import TupleWire.Scan.Selection
import TupleWire.Scan.Basic
import TupleWire.Scan.History
import TupleWire.Store.Session
import TupleWire.Proofs.Frame.Laying
import TupleWire.Proofs.Frame.Layout
import TupleWire.Proofs.Frame.RowReading
import TupleWire.Proofs.Frame.RoundTrip
import TupleWire.Proofs.Scan.Encoding
import TupleWire.Proofs.Scan.Pulling
import TupleWire.Proofs.Scan.Recording
import TupleWire.Proofs.Scan.Delivering
import TupleWire.Proofs.Scan.Ending
import TupleWire.Proofs.Store.Sorted
import TupleWire.Proofs.Store.LastWrite
import TupleWire.Proofs.Store.Selecting
import TupleWire.Proofs.Store.Streaming
import TupleWire.Proofs.Scan.Course
import TupleWire.Proofs.Scan.Offering
import TupleWire.Proofs.Frame.Aligning
import TupleWire.Proofs.Scan.Producing
import TupleWire.Proofs.Frame.Refusing
import TupleWire.Proofs.Scan.Watching
import TupleWire.Proofs.Scan.Accounting
import TupleWire.Proofs.Scan.Resting
import TupleWire.Proofs.Scan.Retrying
import TupleWire.Proofs.Scan.Mirroring
import TupleWire.Proofs.Frame.Corrupting
import TupleWire.Proofs.Frame.Grammar
import TupleWire.Proofs.Frame.Tagging
import TupleWire.Proofs.Frame.ValueWriting
import TupleWire.Proofs.Machine.Decoding
import TupleWire.Proofs.Frame.Composing
import TupleWire.Proofs.Frame.Overrunning
import TupleWire.Proofs.Frame.Locating
import TupleWire.Proofs.Frame.Overlooking
import TupleWire.Proofs.Frame.Transacting
import TupleWire.Proofs.Frame.Bracketing
import TupleWire.Proofs.Frame.Nesting
import TupleWire.Proofs.Store.Searching
import TupleWire.Proofs.Store.SortedMap
import TupleWire.Proofs.Scan.Covering
import TupleWire.Proofs.Scan.Pairing
import TupleWire.Proofs.Store.Projecting
import TupleWire.Proofs.Frame.Faulting
import TupleWire.Proofs.Frame.Naming
import TupleWire.Proofs.Frame.Bounding
import TupleWire.Proofs.Scan.Keeping
import TupleWire.Proofs.Store.Sharing
import TupleWire.Proofs.Store.Living
import TupleWire.Proofs.Store.Counting
import TupleWire.Proofs.Scan.Agreeing
import TupleWire.Proofs.Machine.Padding
