import TupleWire.Frame.ValueFrame

/-! Scalar frames: a shifted length word and the bytes of the value. -/
namespace TupleWire

/-- Writes a scalar frame and returns its length. -/
def Write.putScalar (data : Bytes) : Write Nat := do
  let header ← result (LengthForm.shifted.word (wordSize + data.length))
  atomically do
    putWord header
    put data
    return wordSize + data.length

/-- Reads the scalar frame at the front of a payload. -/
def readScalar (payload : Bytes) : Except Error Bytes := do
  let (_, data) ← ValueForm.scalar.read payload
  return data

end TupleWire
