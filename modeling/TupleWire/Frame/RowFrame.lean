import TupleWire.Frame.Walk

/-! Row frames in received bytes. -/
namespace TupleWire

/-- The bytes of one row frame, its length word included. -/
structure RowFrame where
  bytes : Bytes
  deriving DecidableEq, Repr

namespace RowFrame

def size (frame : RowFrame) : Nat := frame.bytes.length

def walk (frame : RowFrame) : Walk := .start frame.bytes wordSize

def payloads (frame : RowFrame) : List (Except Error Payload) := frame.walk.drain.1

/-- Accepts a frame whose walk meets no failure and ends with the last word. -/
def check (frame : RowFrame) : Except Error RowFrame :=
  let (items, last) := frame.walk.drain
  match items.mapM id with
  | .error e => .error e
  | .ok _ =>
      if last.pos + wordSize = frame.size then .ok frame
      else .error (.corruptAt .rowLengthDisagrees last.pos)

/-- Reads the row frame at the front; the bytes after it are ignored. -/
def read (bytes : Bytes) : Except Error RowFrame :=
  match (wordAt? bytes 0).bind Word.length? with
  | none => .error (.corruptAt .rowLengthTruncated 0)
  | some total =>
      if total < 2 * wordSize then .error (.corruptAt .rowLengthOutOfRange 0)
      else
        match takeBytes? total bytes with
        | none => .error (.corruptAt .rowLengthOutOfRange 0)
        | some (front, _) => check ⟨front⟩

theorem size_of_read_eq_ok {bytes : Bytes} {frame : RowFrame} (h : read bytes = .ok frame) :
    2 * wordSize ≤ frame.size ∧ frame.size ≤ bytes.length := by
  unfold read at h
  split at h
  · cases h
  · split at h
    · cases h
    · next large =>
        split at h
        · cases h
        · next front rest taken =>
            obtain ⟨rfl, full⟩ := takeBytes?_eq_some_iff.mp taken
            unfold check at h
            simp only at h
            split at h
            · cases h
            · split at h
              · cases h
                simp only [size, List.length_append]
                omega
              · cases h

/-- The row frames of a byte string that holds nothing else, each with its position. A
failure ends the list. -/
def stream (pos : Nat) (bytes : Bytes) : List (Nat × Except Error RowFrame) :=
  if bytes.isEmpty then []
  else
    match h : read bytes with
    | .error e => [(pos, .error e)]
    | .ok frame =>
        have : 2 * wordSize ≤ frame.size ∧ frame.size ≤ bytes.length := size_of_read_eq_ok h
        (pos, .ok frame) :: stream (pos + frame.size) (bytes.drop frame.size)
termination_by bytes.length
decreasing_by simp only [List.length_drop, wordSize] at *; omega

end RowFrame

end TupleWire
