import TupleWire.Text.Quoted

/-! Failures: what went wrong, where it was seen, and how that is told. -/
namespace TupleWire

/-- The kinds of failure a caller can tell apart. -/
inductive FaultKind where
  | usage
  | capacity
  | malformed
  | source
  | corrupt
  | closed
  deriving DecidableEq, Repr

def FaultKind.name : FaultKind → String
  | .usage => "Usage"
  | .capacity => "Capacity"
  | .malformed => "Malformed"
  | .source => "Upstream"
  | .corrupt => "Corrupt"
  | .closed => "Closed"

/-- The ways in which received bytes contradict the format. -/
inductive Corruption where
  | rowLengthTruncated
  | rowLengthOutOfRange
  | rowLengthDisagrees
  | terminatorMissing
  | columnTooShort
  | columnOverrun
  | columnPaddingDirty
  | objectHeaderTruncated
  | objectHeaderNotPlain
  | objectLengthOutOfRange
  | objectCountTruncated
  | objectFlagMissing
  | objectLengthsOverrun
  | keyLengthBad
  | valueLengthBad
  | objectEntryOverrun
  | objectLengthDisagrees
  | scalarHeaderTruncated
  | scalarHeaderNotPlain
  | scalarLengthOutOfRange
  | framesMissing
  | framesLeft
  | leafPayload
  | messageTooShort
  | messageTypeUnknown
  deriving DecidableEq, Repr

def Corruption.message : Corruption → String
  | .rowLengthTruncated => "truncated row length"
  | .rowLengthOutOfRange => "row length out of range"
  | .rowLengthDisagrees => "row length disagrees with its column frames"
  | .terminatorMissing => "missing row terminator"
  | .columnTooShort => "column length shorter than its length word"
  | .columnOverrun => "column frame overruns row"
  | .columnPaddingDirty => "column padding is not zeroed"
  | .objectHeaderTruncated => "truncated object header"
  | .objectHeaderNotPlain => "object header is not an uncompressed length"
  | .objectLengthOutOfRange => "object length out of range"
  | .objectCountTruncated => "truncated object count"
  | .objectFlagMissing => "value is not an object"
  | .objectLengthsOverrun => "object length arrays overrun frame"
  | .keyLengthBad => "bad key length"
  | .valueLengthBad => "bad value length"
  | .objectEntryOverrun => "object entry overruns frame"
  | .objectLengthDisagrees => "object length disagrees with its entries"
  | .scalarHeaderTruncated => "truncated scalar header"
  | .scalarHeaderNotPlain => "scalar header is not an uncompressed length"
  | .scalarLengthOutOfRange => "scalar length out of range"
  | .framesMissing => "fewer column frames than columns"
  | .framesLeft => "more column frames than columns"
  | .leafPayload => "leaf column carries a payload"
  | .messageTooShort => "message too short"
  | .messageTypeUnknown => "unknown message type"

namespace Limit

/-- Longest family name, in bytes. -/
def family : Nat := 31

/-- Longest qualifier, in bytes. -/
def qualifier : Nat := 255

def columns : Nat := 64

/-- Longest value frame, in bytes: four times its length still fits a signed word. -/
def value : Nat := 0x1FFFFFFF

def entries : Nat := 0x0FFFFFFF

/-- Most bytes for which memory can be asked at once. -/
def allocation : Nat := 0x7FFFFFFFFFFFFFFF

end Limit

/-- The causes of failure. The last one is a failure that a row source, a message sink
or a caller reports in its own words. -/
inductive Fault where
  | familyEmpty
  | familyTooLong
  | qualifierTooLong
  | tooManyColumns
  | bufferFull (need remaining : Nat)
  | valueTooLong (size : Nat)
  | lengthTooLong
  | tooManyEntries (count : Nat)
  | rowWithoutKey
  | frameTooShortToTag
  | noSuchTable
  | tableNotFound (name : Bytes)
  | scanAborted (after : FaultKind)
  | cursorClosed
  | corrupt (corruption : Corruption)
  | reported (kind : FaultKind) (message source : Option String)
  deriving DecidableEq, Repr

namespace Fault

def kind : Fault → FaultKind
  | .familyEmpty | .familyTooLong | .qualifierTooLong | .tooManyColumns => .usage
  | .bufferFull _ _ | .valueTooLong _ | .lengthTooLong | .tooManyEntries _ => .capacity
  | .rowWithoutKey => .malformed
  | .frameTooShortToTag | .noSuchTable => .usage
  | .tableNotFound _ => .source
  | .scanAborted _ | .cursorClosed => .closed
  | .corrupt _ => .corrupt
  | .reported kind _ _ => kind

def message? : Fault → Option String
  | .familyEmpty => some "family name is empty"
  | .familyTooLong => some s!"family name exceeds {Limit.family} bytes"
  | .qualifierTooLong => some s!"qualifier exceeds {Limit.qualifier} bytes"
  | .tooManyColumns => some s!"at most {Limit.columns} columns per scan"
  | .bufferFull need remaining => some s!"need {need} bytes, {remaining} remaining"
  | .valueTooLong size => some s!"value of {size} bytes exceeds {Limit.value}"
  | .lengthTooLong => some "length does not fit in 32 bits"
  | .tooManyEntries count => some s!"object has {count} entries, limit {Limit.entries}"
  | .rowWithoutKey => some "row has no cells to take a key from"
  | .frameTooShortToTag => some "row frame too short to tag"
  | .noSuchTable => some "no such table"
  | .tableNotFound name => some ("table " ++ Text.quoted name ++ " not found")
  | .scanAborted after => some ("scan aborted after " ++ after.name ++ " error")
  | .cursorClosed => some "cursor already closed"
  | .corrupt corruption => some corruption.message
  | .reported _ message _ => message

/-- What the failure behind this one says, if there is one. -/
def source? : Fault → Option String
  | .lengthTooLong => some "out of range integral type conversion attempted"
  | .reported _ _ source => source
  | _ => none

end Fault

/-- A cause of failure, and where it was seen. -/
structure Error where
  fault : Fault
  rowKey : Option Bytes := none
  column : Option Nat := none
  offset : Option Nat := none
  deriving DecidableEq, Repr

namespace Error

def kind (e : Error) : FaultKind := e.fault.kind

/-- A failure for want of room; the same call can succeed with more of it. -/
def retryable (e : Error) : Bool := e.kind = .capacity

def atRow (e : Error) (key : Bytes) : Error := { e with rowKey := some key }

def atColumn (e : Error) (index : Nat) : Error := { e with column := some index }

def atOffset (e : Error) (offset : Nat) : Error := { e with offset := some offset }

/-- The same failure told in other words. -/
def saying (e : Error) (message : String) : Error :=
  { e with fault := .reported e.kind (some message) e.fault.source? }

def dueTo (e : Error) (source : String) : Error :=
  { e with fault := .reported e.kind e.fault.message? (some source) }

/-- The one-line report: kind, message, row, column, offset; the source is left out. -/
def render (e : Error) : String :=
  let message := (e.fault.message?.map fun text => ": " ++ text).getD ""
  let row := (e.rowKey.map fun key => " (row: " ++ Text.quoted key ++ ")").getD ""
  let column := (e.column.map fun index => s!" (column: {index})").getD ""
  let offset := (e.offset.map fun offset => s!" (offset: {offset})").getD ""
  e.kind.name ++ message ++ row ++ column ++ offset

/-- Bytes that contradict the format at a position. -/
def corruptAt (corruption : Corruption) (offset : Nat) : Error :=
  { fault := .corrupt corruption, offset := some offset }

end Error

end TupleWire
