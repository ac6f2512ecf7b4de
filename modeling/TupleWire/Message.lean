import TupleWire.Frame.Walk

/-! Messages: a row frame under a tag of its own, or the mark that the stream has ended. -/
namespace TupleWire

/-- A message, as a receiver reads it: a row whose column frames are still to be walked,
or the end of the stream. -/
inductive Message where
  | row (walk : Walk)
  | ending
  deriving DecidableEq, Repr

namespace Message

/-- The first word of a message that carries a row, in place of the row length. -/
def rowTag : Word := 0

/-- The only word of the message that ends a stream. -/
def endTag : Word := 1

def endMark : Bytes := endTag.toBytes

/-- The message of a row frame: its length word gives way to the tag. -/
def wrap (frame : Bytes) : Except Error Bytes :=
  match takeWord? frame with
  | none => .error { fault := .frameTooShortToTag }
  | some (_, rest) => .ok (rowTag.toBytes ++ rest)

def read (bytes : Bytes) : Except Error Message :=
  match wordAt? bytes 0 with
  | none => .error { fault := .corrupt .messageTooShort }
  | some tag =>
      if tag = rowTag then .ok (.row (.start bytes wordSize))
      else if tag = endTag then .ok .ending
      else .error { fault := .corrupt .messageTypeUnknown }

end Message

end TupleWire
