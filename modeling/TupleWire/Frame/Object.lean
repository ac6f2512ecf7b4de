import TupleWire.Frame.ValueFrame

/-! Object frames: a shifted length word, a count word, the lengths of all keys, the
lengths of all values, then the bytes of all keys and of all values. -/
namespace TupleWire

/-- Marks the count word of an object. -/
def objectMark : Nat := 0x20000000

/-- An ordered list of keys with values. Keys may repeat and may be empty. -/
structure Object where
  entries : List (Bytes × Bytes)
  deriving DecidableEq, Repr

/-- Maps of texts by name that are filled member by member, such as the objects of a text format.
They come from elsewhere, and what is relied on in them is said where it is. -/
structure MemberMap (μ : Type) where
  empty : μ
  insert : μ → (name value : String) → μ
  members : μ → List (String × String)

/-- Members in a list, the one that was set last at its end. -/
def listMap : MemberMap (List (String × String)) where
  empty := []
  insert known name value := known.filter (·.1 ≠ name) ++ [(name, value)]
  members known := known

namespace Object

def size (object : Object) : Nat := object.entries.length

def keys (object : Object) : List Bytes := object.entries.map Prod.fst

def values (object : Object) : List Bytes := object.entries.map Prod.snd

/-- The value of the first entry with the given key. -/
def get? (object : Object) (key : Bytes) : Option Bytes := object.entries.lookup key

/-- The object as a map of texts: the members are set in the order of the entries. What the text of
bytes is comes from elsewhere, as the map does. -/
def toMap {μ : Type} (text : Bytes → String) (map : MemberMap μ) (object : Object) : μ :=
  object.entries.foldl (fun known (key, value) => map.insert known (text key) (text value))
    map.empty

/-- The members of the object under one conversion to text and in one map, those that run. -/
def members (object : Object) : List (String × String) := object.toMap Text.lossy listMap

end Object

namespace Write

def putLengths (items : List Bytes) : Write Unit :=
  items.forM fun item => do
    let w ← result (LengthForm.raw.word item.length)
    putWord w

/-- Writes an object frame and returns its length. The order of the entries is kept. -/
def putObject (object : Object) : Write Nat := do
  if object.size > Limit.entries then throw { fault := .tooManyEntries object.size }
  atomically do
    let slot ← reserve
    putWord (.ofNat (object.size + objectMark))
    putLengths object.keys
    putLengths object.values
    object.keys.forM put
    object.values.forM put
    finish slot .shifted

end Write

namespace Object

/-- The number of entries, read from the count word after the header, and the rest. Of
the bits above the count only the object flag is looked at. -/
def readCount (frame : Bytes) : Except Error (Nat × Bytes) :=
  match takeWord? frame with
  | none => .error (.corruptAt .objectCountTruncated wordSize)
  | some (tag, rest) =>
      if tag.toNat / objectMark % 2 = 0 then .error (.corruptAt .objectFlagMissing wordSize)
      else .ok (tag.toNat % (Limit.entries + 1), rest)

/-- The lengths of keys and of values, checked pair by pair. The words stand in an object
of `count` entries, from entry number `index` on. -/
def lengthsOf (count : Nat) : (index : Nat) → List Word → List Word →
    Except Error (List Nat × List Nat)
  | index, key :: keys, value :: values =>
      match key.length?, value.length? with
      | none, _ => .error (.corruptAt .keyLengthBad (wordSize * (2 + index)))
      | some _, none => .error (.corruptAt .valueLengthBad (wordSize * (2 + count + index)))
      | some keyLength, some valueLength => do
          let (keyLengths, valueLengths) ← lengthsOf count (index + 1) keys values
          return (keyLength :: keyLengths, valueLength :: valueLengths)
  | _, _, _ => .ok ([], [])

def readLengths (count : Nat) (bytes : Bytes) : Except Error ((List Nat × List Nat) × Bytes) :=
  match takeWords? (count + count) bytes with
  | none => .error (.corruptAt .objectLengthsOverrun (2 * wordSize))
  | some (words, rest) => do
      let lengths ← lengthsOf count 0 (words.take count) (words.drop count)
      return (lengths, rest)

/-- Cuts items of the given lengths off the bytes that end a frame of `total` bytes. -/
def cut (total : Nat) : List Nat → Bytes → Except Error (List Bytes × Bytes)
  | [], rest => .ok ([], rest)
  | length :: lengths, bytes =>
      match takeBytes? length bytes with
      | none => .error (.corruptAt .objectEntryOverrun (total - bytes.length))
      | some (item, rest) => do
          let (items, rest) ← cut total lengths rest
          return (item :: items, rest)

/-- Reads the object frame at the front of a payload. -/
def read (payload : Bytes) : Except Error Object := do
  let (total, frame) ← ValueForm.object.read payload
  let (count, rest) ← readCount frame
  let ((keyLengths, valueLengths), rest) ← readLengths count rest
  let (keys, rest) ← cut total keyLengths rest
  let (values, rest) ← cut total valueLengths rest
  if rest.isEmpty then return ⟨keys.zip values⟩
  else throw (.corruptAt .objectLengthDisagrees (total - rest.length))

end Object

end TupleWire
