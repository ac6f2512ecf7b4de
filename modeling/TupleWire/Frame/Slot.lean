import TupleWire.Frame.Buffer

/-! Length words that are reserved first and filled in once their frame is complete. -/
namespace TupleWire

/-- How a length word counts its frame, itself included: rows and columns store the
number of bytes as it is, values store four times that number. -/
inductive LengthForm where
  | raw
  | shifted
  deriving DecidableEq, Repr

/-- The word that stores a length, where it fits. -/
def LengthForm.word (size : Nat) : LengthForm → Except Error Word
  | .raw =>
      if size < 0x80000000 then .ok (.ofNat size)
      else .error { fault := .lengthTooLong }
  | .shifted =>
      if size ≤ Limit.value then .ok (.ofNat (4 * size))
      else .error { fault := .valueTooLong size }

theorem LengthForm.length?_of_word_raw {size : Nat} {w : Word}
    (h : LengthForm.raw.word size = .ok w) : w.length? = some size := by
  simp only [word] at h
  split at h
  · next fits =>
      cases h
      exact Word.length?_ofNat fits
  · cases h

theorem LengthForm.valueLength?_of_word_shifted {size : Nat} {w : Word}
    (h : LengthForm.shifted.word size = .ok w) : w.valueLength? = some size := by
  simp only [word] at h
  split at h
  · next fits =>
      cases h
      exact Word.valueLength?_ofNat (by simp only [Limit.value] at fits; omega)
  · cases h

/-- The position of a reserved length word. -/
structure Slot where
  start : Nat
  deriving DecidableEq, Repr

/-- A slot is live while its four bytes lie inside the buffer. Clearing the buffer or
cutting it back can end that. -/
def Slot.Live (slot : Slot) (buf : Buffer) : Prop := slot.start + wordSize ≤ buf.size

instance (slot : Slot) (buf : Buffer) : Decidable (slot.Live buf) :=
  inferInstanceAs (Decidable (slot.start + wordSize ≤ buf.size))

namespace Write

/-- Reserves a zero word at the end of the buffer. -/
def reserve : Write Slot := withBuffer fun buf => do
  putWord 0
  return ⟨buf.size⟩

/-- Fills a live slot with the length from it to the end of the buffer, and returns
that length. -/
def finish (slot : Slot) (form : LengthForm) : Write Nat := withBuffer fun buf => do
  let size := buf.size - slot.start
  let w ← result (form.word size)
  edit (·.overwrite slot.start w.toBytes)
  return size

theorem on_reserve (buf : Buffer) :
    reserve.on buf =
      match (putWord 0).on buf with
      | (.ok (), next) => (.ok ⟨buf.size⟩, next)
      | (.error e, next) => (.error e, next) := by
  rw [reserve, on_withBuffer, on_bind]
  rcases (putWord 0).on buf with ⟨_ | _, _⟩ <;> rfl

theorem on_finish (slot : Slot) (form : LengthForm) (buf : Buffer) :
    (finish slot form).on buf =
      match form.word (buf.size - slot.start) with
      | .ok w => (.ok (buf.size - slot.start), buf.overwrite slot.start w.toBytes)
      | .error e => (.error e, buf) := by
  rw [finish, on_withBuffer, on_bind, on_result]
  rcases form.word (buf.size - slot.start) with _ | _ <;> rfl

end Write

end TupleWire
