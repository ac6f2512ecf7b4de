import TupleWire.Fault

/-! A bounded output buffer and the writes on it. A write that fails says why and leaves
the buffer as it then is; an atomic write cuts the buffer back to where it began. -/
namespace TupleWire

/-- Bytes written so far, and the most that may be written. -/
structure Buffer where
  bytes : Bytes := []
  limit : Nat
  deriving DecidableEq, Repr

namespace Buffer

def size (buf : Buffer) : Nat := buf.bytes.length

def remaining (buf : Buffer) : Nat := buf.limit - buf.size

def clear (buf : Buffer) : Buffer := { buf with bytes := [] }

/-- Raises the limit; a lower limit than the present one changes nothing. -/
def raiseTo (buf : Buffer) (limit : Nat) : Buffer := { buf with limit := max buf.limit limit }

def append (buf : Buffer) (data : Bytes) : Buffer := { buf with bytes := buf.bytes ++ data }

/-- Keeps the first `size` bytes. The limit stays. -/
def cutTo (buf : Buffer) (size : Nat) : Buffer := { buf with bytes := buf.bytes.take size }

/-- Replaces the bytes from position `pos` on, as far as the buffer reaches. -/
def overwrite (buf : Buffer) (pos : Nat) (data : Bytes) : Buffer :=
  let kept := data.take (buf.size - pos)
  { buf with bytes := buf.bytes.take pos ++ kept ++ buf.bytes.drop (pos + data.length) }

theorem size_append (buf : Buffer) (data : Bytes) :
    (buf.append data).size = buf.size + data.length := List.length_append

theorem append_append (buf : Buffer) (front back : Bytes) :
    (buf.append front).append back = buf.append (front ++ back) := by
  simp [append]

theorem cutTo_append (buf : Buffer) (data : Bytes) : (buf.append data).cutTo buf.size = buf := by
  simp [append, cutTo, size]

theorem size_overwrite (buf : Buffer) (pos : Nat) (data : Bytes) :
    (buf.overwrite pos data).size = buf.size := by
  simp only [overwrite, size, List.length_append, List.length_take, List.length_drop]
  omega

theorem bytes_overwrite {buf : Buffer} {before old after data : Bytes}
    (shape : buf.bytes = before ++ old ++ after) (same : data.length = old.length) :
    (buf.overwrite before.length data).bytes = before ++ data ++ after := by
  simp only [overwrite, size, shape, same, ← List.length_append, List.drop_left]
  simp [List.take_of_length_le, same]

end Buffer

/-- A write: a result or an error, and the buffer afterwards. -/
abbrev Write := ExceptT Error (StateM Buffer)

namespace Write

variable {α β : Type}

def on (write : Write α) (buf : Buffer) : Except Error α × Buffer := write.run.run buf

def of (f : Buffer → Except Error α × Buffer) : Write α := ExceptT.mk fun buf => f buf

/-- The write that looks at the buffer and goes on. -/
def withBuffer (f : Buffer → Write α) : Write α := of fun buf => (f buf).on buf

def result (r : Except Error α) : Write α := of fun buf => (r, buf)

def edit (f : Buffer → Buffer) : Write Unit := of fun buf => (.ok (), f buf)

def mapError (f : Error → Error) (write : Write α) : Write α := of fun buf =>
  match write.on buf with
  | (.ok a, next) => (.ok a, next)
  | (.error e, next) => (.error (f e), next)

/-- Runs a write; if it fails, the buffer is cut back to its length before it. -/
def atomically (write : Write α) : Write α := of fun buf =>
  match write.on buf with
  | (.ok a, next) => (.ok a, next)
  | (.error e, next) => (.error e, next.cutTo buf.size)

/-- Refuses unless there is room for `need` more bytes. -/
def requireRoom (need : Nat) : Write Unit := withBuffer fun buf =>
  result <|
    if need ≤ buf.remaining then .ok ()
    else .error { fault := .bufferFull need buf.remaining, offset := some buf.size }

/-- Appends `data` whole, or refuses. -/
def put (data : Bytes) : Write Unit := do
  requireRoom data.length
  edit (·.append data)

def putWord (w : Word) : Write Unit := put w.toBytes

theorem on_of (f : Buffer → Except Error α × Buffer) (buf : Buffer) : (of f).on buf = f buf := rfl

theorem on_pure (a : α) (buf : Buffer) : (pure a : Write α).on buf = (.ok a, buf) := rfl

theorem on_bind (write : Write α) (f : α → Write β) (buf : Buffer) :
    (write >>= f).on buf =
      match write.on buf with
      | (.ok a, next) => (f a).on next
      | (.error e, next) => (.error e, next) := by
  change (ExceptT.bindCont f (write.on buf).1).run (write.on buf).2 = _
  rcases write.on buf with ⟨_ | _, _⟩ <;> rfl

theorem on_result (r : Except Error α) (buf : Buffer) : (result r).on buf = (r, buf) := rfl

theorem on_edit (f : Buffer → Buffer) (buf : Buffer) : (edit f).on buf = (.ok (), f buf) := rfl

theorem on_withBuffer (f : Buffer → Write α) (buf : Buffer) :
    (withBuffer f).on buf = (f buf).on buf := rfl

theorem on_mapError (f : Error → Error) (write : Write α) (buf : Buffer) :
    (write.mapError f).on buf = ((write.on buf).1.mapError f, (write.on buf).2) := by
  rw [mapError, on_of]
  rcases write.on buf with ⟨_ | _, _⟩ <;> rfl

theorem on_atomically (write : Write α) (buf : Buffer) :
    (atomically write).on buf =
      match write.on buf with
      | (.ok a, next) => (.ok a, next)
      | (.error e, next) => (.error e, next.cutTo buf.size) := rfl

theorem on_requireRoom (need : Nat) (buf : Buffer) :
    (requireRoom need).on buf =
      (if need ≤ buf.remaining then .ok ()
        else .error { fault := .bufferFull need buf.remaining, offset := some buf.size }, buf) := rfl

theorem on_put (data : Bytes) (buf : Buffer) :
    (put data).on buf =
      if data.length ≤ buf.remaining then (.ok (), buf.append data)
      else
        (.error { fault := .bufferFull data.length buf.remaining, offset := some buf.size },
          buf) := by
  by_cases room : data.length ≤ buf.remaining
  · simp only [put, on_bind, on_requireRoom, on_edit, if_pos room]
  · simp only [put, on_bind, on_requireRoom, if_neg room]

end Write

end TupleWire
