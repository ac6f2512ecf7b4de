import TupleWire.Proofs.Machine.Values

/-! The whole decoder on the machine. No bytes stop it: it comes to what the readers of the
library come to. -/
namespace TupleWire.Machine

/-- A refusal is told with the column; a trap is not. -/
def Halt.atColumn (halt : Halt) (index : Nat) : Halt :=
  match halt with
  | .refused e => .refused (e.atColumn index)
  | .trapped stop => .trapped stop

def readColumn (column : Column) : Payload → Reading Value
  | none => return .null
  | some payload =>
      match column with
      | .rowKey => (readScalar payload).map .scalar
      | .family _ => (readObject payload).map .object
      | .leaf _ _ => .error (.refused { fault := .corrupt .leafPayload })

/-- Pulls one frame for each column, from column number `index` on, and then asks whether
there are more. -/
def readColumns : (index : Nat) → List Column → Walk → Reading (List Value)
  | _, [], walk => do
      let (item, _) ← walk.next
      match item with
      | none => return []
      | some (.ok _) => .error (.refused { fault := .corrupt .framesLeft })
      | some (.error e) => .error (.refused e)
  | index, column :: columns, walk => do
      let (item, next) ← walk.next
      match item with
      | none => .error (.refused { fault := .corrupt .framesMissing })
      | some (.error e) => .error (.refused (e.atColumn index))
      | some (.ok payload) => do
          let value ← (readColumn column payload).mapError (·.atColumn index)
          let values ← readColumns (index + 1) columns next
          return value :: values

def readRow (bytes : Bytes) (columns : List Column) : Reading (List Value) := do
  let frame ← readRowFrame bytes
  readColumns 0 columns (columnWalk frame)

def readMessage (columns : List Column) (bytes : Bytes) : Reading (Option (List Value)) := do
  match ← word? bytes 0 with
  | none => .error (.refused { fault := .corrupt .messageTooShort })
  | some tag =>
      if tag = Message.rowTag then
        let values ← readColumns 0 columns ⟨bytes, wordSize, false⟩
        return some values
      else if tag = Message.endTag then return none
      else .error (.refused { fault := .corrupt .messageTypeUnknown })

theorem readColumn_eq {payload : Payload}
    (fits : ∀ bytes, payload = some bytes → bytes.length < positions) (column : Column) :
    readColumn column payload = (column.read payload).mapError .refused := by
  cases payload with
  | none => rfl
  | some bytes =>
      cases column with
      | rowKey =>
          rw [readColumn, Column.read, readScalar_eq (fits bytes rfl)]
          rcases TupleWire.readScalar bytes with _ | _ <;> rfl
      | family name =>
          rw [readColumn, Column.read, readObject_eq (fits bytes rfl)]
          rcases Object.read bytes with _ | _ <;> rfl
      | leaf name qualifier => rfl

theorem readColumns_eq {walk : Walk} (fits : walk.bytes.length < positions) (index : Nat)
    (columns : List Column) :
    readColumns index columns walk =
      (Value.ofFrames index walk.view.drain.1 columns).mapError .refused := by
  induction columns generalizing index walk with
  | nil =>
      obtain ⟨after, given, -, -⟩ := Walk.next_eq fits
      generalize walk.view.next.1 = item at given
      rcases item with _ | _ | payload
      · rw [readColumns, given, Walk.drain_of_next_none fits given]
        rfl
      · rw [readColumns, given, (Walk.drain_of_next_some fits given).1]
        rfl
      · rw [readColumns, given, (Walk.drain_of_next_some fits given).1]
        rfl
  | cons column columns ih =>
      obtain ⟨after, given, -, same⟩ := Walk.next_eq fits
      generalize walk.view.next.1 = item at given
      rcases item with _ | _ | payload
      · rw [readColumns, given, Walk.drain_of_next_none fits given]
        rfl
      · rw [readColumns, given, (Walk.drain_of_next_some fits given).1]
        rfl
      · have part := (Walk.moved_of_next given).part
        have short : ∀ bytes, payload = some bytes → bytes.length < positions :=
          fun bytes cut => Nat.lt_of_le_of_lt (part bytes cut) fits
        rw [readColumns, given, (Walk.drain_of_next_some fits given).1, Value.ofFrames]
        simp only [ok_bind]
        rw [readColumn_eq short, ih (by rwa [same]), Except.bind]
        rcases column.read payload with e | value
        · rfl
        · rcases Value.ofFrames (index + 1) after.view.drain.1 columns with _ | _ <;> rfl

theorem readRow_eq {bytes : Bytes} (fits : bytes.length < positions) (columns : List Column) :
    readRow bytes columns = (TupleWire.readRow bytes columns).mapError .refused := by
  rw [readRow, TupleWire.readRow, readRowFrame_eq fits]
  rcases read : RowFrame.read bytes with e | frame
  · rfl
  · have size := (RowFrame.size_of_read_eq_ok read).2
    exact readColumns_eq (Nat.lt_of_le_of_lt size fits) 0 columns

theorem readMessage_eq {bytes : Bytes} (fits : bytes.length < positions) (columns : List Column) :
    readMessage columns bytes = (Message.decode columns bytes).mapError .refused := by
  rw [readMessage, word?_eq fits, ok_bind, Message.decode, Message.read]
  rcases wordAt? bytes 0 with _ | tag
  · rfl
  simp only
  by_cases row : tag = Message.rowTag
  · have seen : Walk.view ⟨bytes, wordSize, false⟩ = .start bytes wordSize := rfl
    rw [if_pos row, if_pos row, readColumns_eq fits, seen]
    simp only
    rw [TupleWire.readColumns]
    rcases Value.ofFrames 0 (TupleWire.Walk.start bytes wordSize).drain.1 columns with _ | _ <;> rfl
  · rw [if_neg row, if_neg row]
    by_cases ending : tag = Message.endTag
    · rw [if_pos ending, if_pos ending]
      rfl
    · rw [if_neg ending, if_neg ending]
      rfl

/-- No trap stops the reading. It comes to what the reader of the library comes to, and what
it refuses, it refuses as corrupt. -/
structure Safe {α : Type} (reading : Reading α) (r : Except Error α) : Prop where
  untrapped : ∀ stop, reading ≠ trap stop
  agrees : reading = r.mapError .refused
  corrupt : OnlyCorrupt r

theorem Safe.of_eq {α : Type} {reading : Reading α} {r : Except Error α}
    (agrees : reading = r.mapError .refused) (corrupt : OnlyCorrupt r) : Safe reading r := by
  refine ⟨fun stop trapped => ?_, agrees, corrupt⟩
  rw [agrees] at trapped
  cases r with
  | error e => cases trapped
  | ok a => cases trapped

/-- The frames that a walk gives, and behind them its failure, if there is one. -/
def given (frames : List Payload) (failure : Option Error) : List (Except Error Payload) :=
  frames.map .ok ++ failure.toList.map .error

/-- What the whole decoder does with any bytes: its readers are safe, and so is every call on
a walk from position `start`. The calls give no more frames than there are words behind that
position, then one failure or none, and nothing from there on. -/
structure DecoderSafe (bytes : Bytes) (start : Nat) (columns : List Column) : Prop where
  rowFrame : Safe (readRowFrame bytes) (RowFrame.read bytes)
  scalar : Safe (readScalar bytes) (TupleWire.readScalar bytes)
  object : Safe (readObject bytes) (Object.read bytes)
  row : Safe (readRow bytes columns) (TupleWire.readRow bytes columns)
  message : Safe (readMessage columns bytes) (Message.decode columns bytes)
  calls : ∀ n, Walk.nexts n ⟨bytes, start, false⟩ =
    .ok ((TupleWire.Walk.start bytes start).nexts n)
  course : ∃ frames failure, frames.length ≤ (bytes.length - start) / wordSize ∧
    (∀ e, failure = some e → e.kind = .corrupt) ∧
    ∀ n, (TupleWire.Walk.start bytes start).nexts ((given frames failure).length + n) =
      (given frames failure).map some ++ List.replicate n none

theorem course_of_start (bytes : Bytes) (start : Nat) :
    ∃ frames failure, frames.length ≤ (bytes.length - start) / wordSize ∧
      (∀ e, failure = some e → e.kind = .corrupt) ∧
      (TupleWire.Walk.start bytes start).drain.1 = given frames failure := by
  obtain ⟨body, parts, splits, course⟩ :=
    (TupleWire.Walk.start bytes start).drain_splits rfl
  have bound : body.length ≤ bytes.length - start →
      (parts.map Payload.ofBytes).length ≤ (bytes.length - start) / wordSize := by
    intro inside
    have words := splits.length_le
    rw [List.length_map, Nat.le_div_iff_mul_le (by decide), Nat.mul_comm]
    omega
  have front : (TupleWire.Walk.start bytes start).rest.length = bytes.length - start :=
    List.length_drop
  rcases course with ⟨behind, rest, drained⟩ | ⟨corruption, behind, rest, drained⟩
  · have size := congrArg List.length rest
    rw [front, List.length_append] at size
    refine ⟨parts.map Payload.ofBytes, none, bound (by omega), ?_, ?_⟩
    · rintro _ ⟨⟩
    · rw [drained]
      exact (List.append_nil _).symm
  · have size := congrArg List.length rest
    rw [front, List.length_append] at size
    refine ⟨parts.map Payload.ofBytes, some _, bound (by omega), ?_, by rw [drained]; rfl⟩
    rintro _ ⟨⟩
    rfl

/-- The decoder is safe on arbitrary bytes, wherever a walk starts and whatever the columns
are: no index lies outside and no sum of positions is too large. -/
theorem decoder_safe (bytes : Bytes) (start : Nat) (columns : List Column)
    (fits : bytes.length < positions) : DecoderSafe bytes start columns where
  rowFrame := .of_eq (readRowFrame_eq fits) (RowFrame.onlyCorrupt_read bytes)
  scalar := .of_eq (readScalar_eq fits) (onlyCorrupt_readScalar bytes)
  object := .of_eq (readObject_eq fits) (Object.onlyCorrupt_read bytes)
  row := .of_eq (readRow_eq fits columns) (onlyCorrupt_readRow bytes columns)
  message := .of_eq (readMessage_eq fits columns) (Message.onlyCorrupt_decode columns bytes)
  calls := Walk.nexts_eq fits
  course := by
    obtain ⟨frames, failure, bound, corrupt, drained⟩ := course_of_start bytes start
    refine ⟨frames, failure, bound, corrupt, fun n => ?_⟩
    rw [← drained]
    exact TupleWire.Walk.nexts_drain _ n

/-- A walk from the last position there is asks for a word that would end beyond it. -/
theorem decoder_safe_last_position :
    ([8, 0, 0, 0, 0, 0, 0, 0] : Bytes).length < positions ∧
      DecoderSafe [8, 0, 0, 0, 0, 0, 0, 0] 0xFFFFFFFFFFFFFFFF [.rowKey] ∧
      Walk.nexts 2 ⟨[8, 0, 0, 0, 0, 0, 0, 0], 0xFFFFFFFFFFFFFFFF, false⟩ =
        .ok [some (.error (.corruptAt .terminatorMissing 0xFFFFFFFFFFFFFFFF)), none] :=
  ⟨by decide, decoder_safe _ _ _ (by decide), rfl⟩

end TupleWire.Machine
