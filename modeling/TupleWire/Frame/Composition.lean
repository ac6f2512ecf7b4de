import TupleWire.Cell
import TupleWire.Column
import TupleWire.Frame.Object
import TupleWire.Frame.Padding
import TupleWire.Frame.Scalar

/-! Row frames: a raw length word, one column frame for each column, and a zero word.
A column frame is a raw length word, the value frame if there is one, and zero bytes up
to the next multiple of four in the buffer. -/
namespace TupleWire.Write

/-- Writes the value frame of a column. A leaf has none, which is read back as NULL. -/
def putValue (row : Row) : Column → Write Unit
  | .rowKey => do
      let some key := row.key?
        | throw { fault := .rowWithoutKey }
      discard (putScalar key)
  | .family name => discard (putObject ⟨row.entries name⟩)
  | .leaf _ _ => return

def putColumn (row : Row) (column : Column) : Write Unit := do
  let slot ← reserve
  putValue row column
  discard (align wordSize)
  discard (finish slot .raw)

/-- Writes the columns from number `index` on. -/
def putColumns (row : Row) : (index : Nat) → List Column → Write Unit
  | _, [] => return
  | index, column :: rest => do
      (putColumn row column).mapError (·.atColumn index)
      putColumns row (index + 1) rest

/-- Writes a row frame and returns its length. -/
def putRow (row : Row) (columns : List Column) : Write Nat :=
  atomically do
    let slot ← reserve
    putColumns row 0 columns
    putWord 0
    finish slot .raw

end TupleWire.Write
