import TupleWire.Frame.Slot

/-! Value frames at the front of a column's payload. Both sorts, scalars and objects,
begin with a shifted length word. -/
namespace TupleWire

/-- A sort of value frame: its least length, and what can be wrong with its header. -/
structure ValueForm where
  least : Nat
  truncated : Corruption
  notPlain : Corruption
  outOfRange : Corruption

namespace ValueForm

def scalar : ValueForm :=
  { least := wordSize
    truncated := .scalarHeaderTruncated
    notPlain := .scalarHeaderNotPlain
    outOfRange := .scalarLengthOutOfRange }

def object : ValueForm :=
  { least := 2 * wordSize
    truncated := .objectHeaderTruncated
    notPlain := .objectHeaderNotPlain
    outOfRange := .objectLengthOutOfRange }

/-- The total length of the value frame at the front, and its bytes after the header. The
bytes of the payload after the frame are ignored. -/
def read (form : ValueForm) (payload : Bytes) : Except Error (Nat × Bytes) :=
  match takeWord? payload with
  | none => .error (.corruptAt form.truncated 0)
  | some (header, body) =>
      match header.valueLength? with
      | none => .error (.corruptAt form.notPlain 0)
      | some total =>
          if total < form.least then .error (.corruptAt form.outOfRange 0)
          else
            match takeBytes? (total - wordSize) body with
            | none => .error (.corruptAt form.outOfRange 0)
            | some (frame, _) => .ok (total, frame)

end ValueForm

end TupleWire
