import TupleWire.Frame.Composition
import TupleWire.Proofs.Frame.Laying

/-! The bytes of values, columns and rows, said without a buffer: every writer lays them.
Only the padding of a column depends on where its frame stands. -/
namespace TupleWire

namespace Layout

def zeros (n : Nat) : Bytes := List.replicate n 0

def scalar (data : Bytes) : Bytes := frame .shifted data

def lengths (items : List Bytes) : Bytes :=
  items.flatMap fun item => (LengthForm.raw.stored item.length).toBytes

/-- The count word of an object, the lengths of its keys and values, its keys and values. -/
def objectBody (object : Object) : Bytes :=
  (Word.ofNat (object.size + objectMark)).toBytes ++ (lengths object.keys ++
    (lengths object.values ++ (object.keys.flatten ++ object.values.flatten)))

def object (object : Object) : Bytes := frame .shifted (objectBody object)

/-- The value frame of a column; a leaf has none. -/
def value (row : Row) : Column → Bytes
  | .rowKey => (row.key?.map scalar).getD []
  | .family name => object ⟨row.entries name⟩
  | .leaf _ _ => []

/-- The value frame that begins at position `pos`, and zeros up to the next multiple of four. -/
def payload (pos : Nat) (row : Row) (column : Column) : Bytes :=
  value row column ++ zeros (padding (pos + (value row column).length) wordSize)

/-- The column frame whose length word stands at position `pos`. -/
def column (pos : Nat) (row : Row) (column : Column) : Bytes :=
  frame .raw (payload (pos + wordSize) row column)

def columns (row : Row) : (pos : Nat) → List Column → Bytes
  | _, [] => []
  | pos, first :: rest =>
      column pos row first ++ columns row (pos + (column pos row first).length) rest

/-- The row frame whose length word stands at position `pos`. -/
def row (pos : Nat) (row : Row) (list : List Column) : Bytes :=
  frame .raw (columns row (pos + wordSize) list ++ (0 : Word).toBytes)

/-- The row has what the column shows, and the length of its value can be told. -/
def Encodable (row : Row) (column : Column) : Prop :=
  (column = .rowKey → row ≠ []) ∧ (value row column).length ≤ Limit.value

instance (row : Row) (column : Column) : Decidable (Encodable row column) :=
  inferInstanceAs (Decidable (_ ∧ _))

/-- The row can be told under the columns at position `pos`, given room enough. -/
def Writable (pos : Nat) (row : Row) (list : List Column) : Prop :=
  (∀ column ∈ list, Encodable row column) ∧ LengthForm.raw.Fits (Layout.row pos row list).length

instance (pos : Nat) (row : Row) (list : List Column) : Decidable (Writable pos row list) :=
  inferInstanceAs (Decidable (_ ∧ _))

theorem length_lengths (items : List Bytes) : (lengths items).length = wordSize * items.length := by
  induction items with
  | nil => rfl
  | cons item items ih =>
      rw [lengths, List.flatMap_cons, List.length_append, Word.length_toBytes, ← lengths, ih,
        List.length_cons, Nat.mul_succ, Nat.add_comm]

theorem length_object (object : Object) :
    (Layout.object object).length = 2 * wordSize + 2 * wordSize * object.size +
      (object.keys.flatten.length + object.values.flatten.length) := by
  have keys : object.keys.length = object.size := List.length_map _
  have values : object.values.length = object.size := List.length_map _
  simp only [Layout.object, objectBody, length_frame, List.length_append, Word.length_toBytes,
    length_lengths, keys, values, wordSize]
  omega

theorem parts_fit {object : Object} (h : (Layout.object object).length ≤ Limit.value) :
    object.size ≤ Limit.entries ∧ (∀ key ∈ object.keys, LengthForm.raw.Fits key.length) ∧
      ∀ item ∈ object.values, LengthForm.raw.Fits item.length := by
  rw [length_object] at h
  simp only [Limit.value, wordSize] at h
  refine ⟨by simp only [Limit.entries]; omega, ?_, ?_⟩
  · intro key member
    have short := (List.sublist_flatten_of_mem member).length_le
    simp only [LengthForm.Fits]
    omega
  · intro item member
    have short := (List.sublist_flatten_of_mem member).length_le
    simp only [LengthForm.Fits]
    omega

end Layout

namespace Write

theorem on_throw {α : Type} (e : Error) (buf : Buffer) :
    (throw e : Write α).on buf = (.error e, buf) := rfl

theorem lays_putScalar (data : Bytes) (buf : Buffer) :
    (putScalar data).Lays buf ((Layout.scalar data).length ≤ Limit.value)
      (Layout.scalar data) (Layout.scalar data).length := by
  have header := Lays.put buf (LengthForm.shifted.stored (wordSize + data.length)).toBytes
  have body := (header.seq ((Lays.put _ data).seq (Lays.pure _ (wordSize + data.length)))).atomically
  rw [List.append_nil] at body
  rw [Layout.scalar, Layout.length_frame]
  exact (Lays.result_bind LengthForm.word_of_fits LengthForm.word_of_not_fits body).congr
    (by simp [LengthForm.Fits])

theorem lays_putLengths (items : List Bytes) (buf : Buffer) :
    (putLengths items).Lays buf (∀ item ∈ items, LengthForm.raw.Fits item.length)
      (Layout.lengths items) () := by
  refine Lays.forM (fun buf item => ?_) items buf
  exact (Lays.result_bind LengthForm.word_of_fits LengthForm.word_of_not_fits
    (Lays.put buf _)).congr (and_iff_left trivial)

theorem lays_putAll (items : List Bytes) (buf : Buffer) :
    (items.forM put).Lays buf True items.flatten () := by
  have each : (items.forM put).Lays buf _ (items.flatMap id) () := Lays.forM Lays.put items buf
  rw [List.flatMap_id] at each
  exact each.congr (by simp)

def putObjectBody (object : Object) : Write Unit := do
  putWord (.ofNat (object.size + objectMark))
  putLengths object.keys
  putLengths object.values
  object.keys.forM put
  object.values.forM put

theorem putObject_eq (object : Object) :
    putObject object =
      if object.size > Limit.entries then throw { fault := .tooManyEntries object.size }
      else atomically (framed .shifted (putObjectBody object)) := by
  simp only [putObject, framed, putObjectBody, bind_assoc]
  rfl

theorem lays_putObjectBody (object : Object) (buf : Buffer) :
    (putObjectBody object).Lays buf
      ((∀ key ∈ object.keys, LengthForm.raw.Fits key.length) ∧
        ∀ item ∈ object.values, LengthForm.raw.Fits item.length)
      (Layout.objectBody object) () := by
  have whole := (Lays.put buf (Word.ofNat (object.size + objectMark)).toBytes).seq
    ((lays_putLengths object.keys _).seq ((lays_putLengths object.values _).seq
      ((lays_putAll object.keys _).seq (lays_putAll object.values _))))
  exact whole.congr (by simp)

theorem lays_putObject (object : Object) (buf : Buffer) :
    (putObject object).Lays buf ((Layout.object object).length ≤ Limit.value)
      (Layout.object object) (Layout.object object).length := by
  rw [putObject_eq]
  split
  · next many =>
      constructor
      · intro short
        have few := (Layout.parts_fit short).1
        omega
      · intro _
        exact ⟨_, [], Nat.zero_le _, by rw [on_throw, Buffer.append_nil]⟩
  · have whole : (framed .shifted (putObjectBody object)).Lays buf _ _ _ :=
      Lays.framed (lays_putObjectBody object _)
    refine whole.atomically.congr ⟨fun both => both.2, fun short => ⟨?_, short⟩⟩
    exact (Layout.parts_fit short).2

theorem lays_putValue (row : Row) (column : Column) (buf : Buffer) :
    (putValue row column).Lays buf (Layout.Encodable row column) (Layout.value row column) () := by
  cases column with
  | rowKey =>
      cases row with
      | nil =>
          constructor
          · intro holds
            exact absurd rfl (holds.1 rfl)
          · intro _
            exact ⟨_, [], Nat.zero_le _, by rw [putValue, Buffer.append_nil]; rfl⟩
      | cons cell cells =>
          refine (lays_putScalar cell.row buf).discard.congr ?_
          exact ⟨fun short => ⟨fun _ => List.cons_ne_nil _ _, short⟩, fun holds => holds.2⟩
  | family name =>
      refine (lays_putObject ⟨row.entries name⟩ buf).discard.congr ?_
      exact ⟨fun short => ⟨nofun, short⟩, fun holds => holds.2⟩
  | leaf name qualifier =>
      exact (Lays.pure buf ()).congr ⟨fun _ => ⟨nofun, Nat.zero_le _⟩, fun _ => trivial⟩

theorem putColumn_eq (row : Row) (column : Column) :
    putColumn row column = discard (framed .raw do
      putValue row column
      discard (align wordSize)) := by
  simp only [putColumn, framed, discard, Functor.discard, map_const, Function.comp_apply,
    map_eq_pure_bind, bind_assoc]

theorem putRow_eq (row : Row) (list : List Column) :
    putRow row list = atomically (framed .raw do
      putColumns row 0 list
      putWord 0) := by
  simp only [putRow, framed, bind_assoc]

theorem column_fits {row : Row} {column : Column} (pos : Nat) (h : Layout.Encodable row column) :
    LengthForm.raw.Fits (Layout.column pos row column).length := by
  have short := h.2
  have pad := padding_lt (pos + wordSize + (Layout.value row column).length) (n := wordSize)
    (by decide)
  simp only [Limit.value] at short
  simp only [LengthForm.Fits, Layout.column, Layout.length_frame, Layout.payload, Layout.zeros,
    List.length_append, List.length_replicate]
  simp only [wordSize] at pad ⊢
  omega

theorem lays_putColumn (row : Row) (column : Column) (buf : Buffer) :
    (putColumn row column).Lays buf (Layout.Encodable row column)
      (Layout.column buf.size row column) () := by
  rw [putColumn_eq]
  have payload := (lays_putValue row column (buf.append (0 : Word).toBytes)).seq
    (Lays.align _ wordSize).discard
  have sizes : ((buf.append (0 : Word).toBytes).append (Layout.value row column)).size =
      buf.size + wordSize + (Layout.value row column).length := by
    rw [Buffer.size_append, Buffer.size_append, Word.length_toBytes]
  rw [sizes] at payload
  refine (Lays.framed payload).discard.congr ⟨fun both => both.1.1, fun holds => ?_⟩
  exact ⟨⟨holds, trivial⟩, column_fits buf.size holds⟩

theorem lays_putColumns (row : Row) (list : List Column) (index : Nat) (buf : Buffer) :
    (putColumns row index list).Lays buf (∀ column ∈ list, Layout.Encodable row column)
      (Layout.columns row buf.size list) () := by
  induction list generalizing index buf with
  | nil => exact (Lays.pure buf ()).congr (by simp)
  | cons column list ih =>
      have first := (lays_putColumn row column buf).mapError (·.atColumn index)
      have rest := ih (index + 1) (buf.append (Layout.column buf.size row column))
      rw [Buffer.size_append] at rest
      exact (first.seq rest).congr (by simp)

theorem lays_framedRow (row : Row) (list : List Column) (buf : Buffer) :
    (framed .raw do
      putColumns row 0 list
      putWord 0).Lays buf (Layout.Writable buf.size row list)
      (Layout.row buf.size row list) (Layout.row buf.size row list).length := by
  have body := (lays_putColumns row list 0 (buf.append (0 : Word).toBytes)).seq
    (Lays.put _ (0 : Word).toBytes)
  rw [Buffer.size_append, Word.length_toBytes] at body
  exact (Lays.framed body).congr (by simp [Layout.Writable, Layout.row])

theorem lays_putRow (row : Row) (list : List Column) (buf : Buffer) :
    (putRow row list).Lays buf (Layout.Writable buf.size row list)
      (Layout.row buf.size row list) (Layout.row buf.size row list).length := by
  rw [putRow_eq]
  exact (lays_framedRow row list buf).atomically

/-- A row is written whole, or the buffer is as before. -/
theorem on_putRow (row : Row) (list : List Column) (buf : Buffer) :
    (putRow row list).on buf =
        (.ok (Layout.row buf.size row list).length, buf.append (Layout.row buf.size row list)) ∨
      ∃ e, (putRow row list).on buf = (.error e, buf) := by
  by_cases fits : Layout.Writable buf.size row list ∧
      (Layout.row buf.size row list).length ≤ buf.remaining
  · exact .inl ((lays_putRow row list buf).laid fits.1 fits.2)
  · rw [putRow_eq]
    exact .inr ((lays_framedRow row list buf).unchanged fits)

end Write

end TupleWire
