import TupleWire.Scan.Delivery

/-! Histories of calls on one scan, up to the moment when it is dropped and after. -/
namespace TupleWire

/-- The calls that a holder of a scan can make. -/
inductive Call where
  | next
  | writeNext (buf : Buffer)
  | close
  | deliver (answers : List (Except Error Receipt))
  | drop

/-- What a call gives: the frame of a row, or whether a row was written and the buffer
then, or the tally and the messages that the sink was offered. -/
inductive Answer where
  | frame (result : Except Error (Option Bytes))
  | written (result : Except Error Bool) (buf : Buffer)
  | closed
  | delivered (result : Except Error Tally) (messages : List Bytes)
  | dropped
  | noScan

/-- A scan, until it is dropped, and the world of its source. -/
structure Handle (σ ω : Type) where
  scan : Option (Scan σ)
  world : ω

namespace Handle

variable {σ ω : Type} [Source σ ω]

/-- Makes a call. Dropping a scan closes it. -/
def call (handle : Handle σ ω) (call : Call) : Answer × Handle σ ω :=
  match handle.scan, call with
  | none, .drop => (.dropped, handle)
  | none, _ => (.noScan, handle)
  | some scan, .next =>
      let turn := scan.writeNext scan.freshBuf handle.world
      let frame := turn.result.map fun more => if more then some turn.buf.bytes else none
      (.frame frame, ⟨some turn.scan, turn.world⟩)
  | some scan, .writeNext buf =>
      let turn := scan.writeNext buf handle.world
      (.written turn.result turn.buf, ⟨some turn.scan, turn.world⟩)
  | some scan, .close =>
      let (scan, world) := scan.close handle.world
      (.closed, ⟨some scan, world⟩)
  | some scan, .deliver answers =>
      let delivered := scan.deliver { answers } handle.world
      (.delivered delivered.result delivered.sink.offered, ⟨some delivered.scan, delivered.world⟩)
  | some scan, .drop =>
      let (_, world) := scan.close handle.world
      (.dropped, ⟨none, world⟩)

/-- Makes the calls in order, and gives the answers. -/
def run (handle : Handle σ ω) : List Call → List Answer × Handle σ ω
  | [] => ([], handle)
  | first :: rest =>
      let (answer, handle) := handle.call first
      let (answers, handle) := handle.run rest
      (answer :: answers, handle)

end Handle

end TupleWire
