import TupleWire.Message
import TupleWire.Scan.Basic

/-! Delivery: every remaining row of a scan goes to a sink as a message of its own, and
then the mark that the stream has ended. -/
namespace TupleWire

/-- What a sink makes of a message that it does not refuse. A detached sink wants no
more of them. -/
inductive Receipt where
  | taken
  | detached
  deriving DecidableEq, Repr

/-- A receiver of messages. It gives its answers in order and takes every message past
the last of them; `offered` are all messages handed to it, refused ones too. -/
structure Sink where
  answers : List (Except Error Receipt) := []
  offered : List Bytes := []

def Sink.offer (sink : Sink) (message : Bytes) : Except Error Receipt × Sink :=
  let offered := sink.offered ++ [message]
  match sink.answers with
  | [] => (.ok .taken, { sink with offered })
  | answer :: answers => (answer, { answers, offered })

/-- The rows that a sink took, and their bytes; the end mark is not counted. -/
structure Tally where
  rows : Nat := 0
  bytes : Nat := 0
  detached : Bool := false
  deriving DecidableEq, Repr

namespace Tally

def add (tally : Tally) (message : Bytes) : Tally :=
  { tally with rows := tally.rows + 1, bytes := tally.bytes + message.length }

def detach (tally : Tally) : Tally := { tally with detached := true }

end Tally

structure Delivered (σ ω : Type) where
  result : Except Error Tally
  scan : Scan σ
  sink : Sink
  world : ω

namespace Scan

variable {σ ω : Type} [Source σ ω]

/-- Delivers the rows that are left and the end mark, after the rows that `tally` counts. -/
def deliverRows (scan : Scan σ) (sink : Sink) (world : ω) (tally : Tally) :
    Delivered σ ω :=
  let turn := scan.writeNext scan.freshBuf world
  match _h : turn.result with
  | .error e => { result := .error e, scan := turn.scan, sink, world := turn.world }
  | .ok false =>
      let (receipt, sink) := sink.offer Message.endMark
      let result := receipt.map fun
        | .taken => tally
        | .detached => tally.detach
      { result, scan := turn.scan, sink, world := turn.world }
  | .ok true =>
      match Message.wrap turn.buf.bytes with
      | .error e => { result := .error e, scan := turn.scan, sink, world := turn.world }
      | .ok message =>
          match sink.offer message with
          | (.error e, sink) =>
              { result := .error e, scan := turn.scan, sink, world := turn.world }
          | (.ok .detached, sink) =>
              { result := .ok tally.detach, scan := turn.scan, sink, world := turn.world }
          | (.ok .taken, sink) => turn.scan.deliverRows sink turn.world (tally.add message)
termination_by scan.supply
decreasing_by exact supply_writeNext_lt (by assumption)

/-- Delivers the rows that are left and the end mark, and closes the scan, however the
delivery ends. -/
def deliver (scan : Scan σ) (sink : Sink) (world : ω) : Delivered σ ω :=
  let sent := scan.deliverRows sink world {}
  let (scan, world) := sent.scan.close sent.world
  { sent with scan, world }

end Scan

end TupleWire
