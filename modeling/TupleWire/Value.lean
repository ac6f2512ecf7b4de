import TupleWire.Column
import TupleWire.Frame.Object
import TupleWire.Frame.RowFrame
import TupleWire.Frame.Scalar

/-! Column values, as a reader of row frames finds them. -/
namespace TupleWire

inductive Value where
  | null
  | scalar (data : Bytes)
  | object (object : Object)
  deriving DecidableEq, Repr

/-- The value of a payload under a column. -/
def Column.read (column : Column) : Payload → Except Error Value
  | none => .ok .null
  | some payload =>
      match column with
      | .rowKey => (readScalar payload).map .scalar
      | .family _ => (Object.read payload).map .object
      | .leaf _ _ => .error { fault := .corrupt .leafPayload }

namespace Value

/-- The values of frames under the columns from number `index` on, one frame a column.
The first fault counts; a fault of a frame or of its value is told with the column. -/
def ofFrames : (index : Nat) → List (Except Error Payload) → List Column →
    Except Error (List Value)
  | _, [], [] => .ok []
  | _, [], _ :: _ => .error { fault := .corrupt .framesMissing }
  | _, .ok _ :: _, [] => .error { fault := .corrupt .framesLeft }
  | _, .error e :: _, [] => .error e
  | index, frame :: frames, column :: columns =>
      match frame.bind column.read with
      | .error e => .error (e.atColumn index)
      | .ok value => (ofFrames (index + 1) frames columns).map (value :: ·)

end Value

def readColumns (frames : List (Except Error Payload)) (columns : List Column) :
    Except Error (List Value) :=
  Value.ofFrames 0 frames columns

def RowFrame.values (frame : RowFrame) (columns : List Column) : Except Error (List Value) :=
  readColumns frame.payloads columns

/-- Reads the row frame at the front and the values of its columns. -/
def readRow (bytes : Bytes) (columns : List Column) : Except Error (List Value) := do
  let frame ← RowFrame.read bytes
  frame.values columns

end TupleWire
