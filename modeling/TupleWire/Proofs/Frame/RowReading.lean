import TupleWire.Proofs.Frame.ValueReading
import TupleWire.Value

/-! Rows that were laid, whatever their position was, are read back: the walk finds the
column frames and ends with the last word, and each payload shows its column's value. -/
namespace TupleWire

/-- The value that a row has under a column. A row without cells has no key. -/
def Row.value? (row : Row) : Column → Option Value
  | .rowKey => row.key?.map .scalar
  | .family name => some (.object ⟨row.entries name⟩)
  | .leaf _ _ => some .null

/-- The payload that a walk makes of the bytes behind a column's length word. -/
def Payload.ofBytes (bytes : Bytes) : Payload :=
  if wordSize ≤ bytes.length then some bytes else none

/-- Bytes that are too few for a value frame are padding, and padding is zero. -/
def Payload.Clean (bytes : Bytes) : Prop :=
  bytes.length < wordSize → ∀ b ∈ bytes, b = 0

namespace Walk

theorem step_frame {bytes : Bytes} (clean : Payload.Clean bytes)
    (fits : LengthForm.raw.Fits (Layout.frame .raw bytes).length) (rest : Bytes) (pos : Nat)
    (done : Bool) :
    step ⟨Layout.frame .raw bytes ++ rest, pos, done⟩ =
      .ok (some (Payload.ofBytes bytes, ⟨rest, pos + (Layout.frame .raw bytes).length, done⟩)) := by
  rw [Layout.length_frame] at fits ⊢
  have some : ¬ wordSize + bytes.length = 0 := by simp only [wordSize]; omega
  have whole : ¬ wordSize + bytes.length < wordSize := by omega
  rw [step, Layout.frame]
  simp only [List.append_assoc, takeWord?_append]
  rw [LengthForm.length?_stored fits]
  simp only
  rw [if_neg some, if_neg whole, Nat.add_sub_cancel_left, takeBytes?_append]
  simp only
  by_cases long : wordSize ≤ bytes.length
  · rw [if_pos long, Payload.ofBytes, if_pos long]
  · have zeros : bytes.any (· ≠ 0) = false := by
      rw [List.any_eq_false]
      intro b member
      simpa using clean (by omega) b member
    rw [if_neg long, zeros, Payload.ofBytes, if_neg long]
    rfl

theorem step_zeroWord (rest : Bytes) (pos : Nat) (done : Bool) :
    step ⟨(0 : Word).toBytes ++ rest, pos, done⟩ = .ok none := by
  rw [step]
  simp only [takeWord?_append]
  rfl

theorem drain_of_frame {walk next : Walk} {payload : Payload} (running : walk.done = false)
    (h : walk.step = .ok (some (payload, next))) :
    walk.drain = (.ok payload :: next.drain.1, next.drain.2) := by
  have given : walk.next = (some (.ok payload), next) := by
    simp [Walk.next, running, h]
  rw [drain]
  split
  · next none =>
      rw [given] at none
      cases none
  · next item after found =>
      rw [given] at found
      obtain ⟨same, rfl⟩ := Prod.mk.inj found
      cases same
      rfl

theorem drain_of_end {walk : Walk} (running : walk.done = false) (h : walk.step = .ok none) :
    walk.drain = ([], { walk with done := true }) := by
  have given : walk.next = (none, { walk with done := true }) := by
    simp [Walk.next, running, h]
  rw [drain]
  split
  · next none =>
      rw [given] at none
      cases none
      rfl
  · next item after found =>
      rw [given] at found
      cases found

end Walk

namespace Layout

def payloads (row : Row) : (pos : Nat) → List Column → List Payload
  | _, [] => []
  | pos, first :: rest =>
      Payload.ofBytes (payload (pos + wordSize) row first) ::
        payloads row (pos + (column pos row first).length) rest

theorem wordSize_le_scalar (data : Bytes) : wordSize ≤ (scalar data).length := by
  rw [scalar, length_frame]
  exact Nat.le_add_right _ _

theorem wordSize_le_object (object : Object) : wordSize ≤ (Layout.object object).length := by
  rw [Layout.object, length_frame]
  exact Nat.le_add_right _ _

theorem clean_payload (pos : Nat) {row : Row} {column : Column} (h : Encodable row column) :
    Payload.Clean (payload pos row column) := by
  intro short b member
  rw [payload, List.length_append] at short
  have less : (value row column).length < wordSize := by omega
  have empty : value row column = [] := by
    cases column with
    | rowKey =>
        obtain ⟨cell, cells, rfl⟩ := List.exists_cons_of_ne_nil (h.1 rfl)
        have := wordSize_le_scalar cell.row
        exact absurd less (Nat.not_lt.mpr this)
    | family name =>
        have := wordSize_le_object ⟨row.entries name⟩
        exact absurd less (Nat.not_lt.mpr this)
    | leaf name qualifier => rfl
  rw [payload, empty, List.nil_append, zeros] at member
  exact List.eq_of_mem_replicate member

/-- The walk over the columns of a row frame, up to the zero word. -/
theorem drain_columns {row : Row} {list : List Column}
    (h : ∀ column ∈ list, Encodable row column) (laid pos : Nat) (rest : Bytes) :
    Walk.drain ⟨columns row laid list ++ ((0 : Word).toBytes ++ rest), pos, false⟩ =
      ((payloads row laid list).map .ok,
        ⟨(0 : Word).toBytes ++ rest, pos + (columns row laid list).length, true⟩) := by
  induction list generalizing laid pos with
  | nil => exact Walk.drain_of_end rfl (Walk.step_zeroWord rest pos false)
  | cons column list ih =>
      have first := h column (by simp)
      have front : columns row laid (column :: list) ++ ((0 : Word).toBytes ++ rest) =
          Layout.column laid row column ++
            (columns row (laid + (Layout.column laid row column).length) list ++
              ((0 : Word).toBytes ++ rest)) := by
        rw [columns, List.append_assoc]
      have found := Walk.step_frame (clean_payload (laid + wordSize) first)
        (Write.column_fits laid first)
        (columns row (laid + (Layout.column laid row column).length) list ++
          ((0 : Word).toBytes ++ rest)) pos false
      rw [← Layout.column] at found
      rw [front, Walk.drain_of_frame rfl found,
        ih fun column member => h column (List.mem_cons_of_mem _ member)]
      rw [payloads, List.map_cons, columns, List.length_append, Nat.add_assoc]

end Layout

theorem Column.read_ofBytes {value : Bytes} (column : Column) (long : wordSize ≤ value.length)
    (pad : Bytes) :
    column.read (Payload.ofBytes (value ++ pad)) = column.read (some (value ++ pad)) := by
  have whole : wordSize ≤ (value ++ pad).length := by
    rw [List.length_append]
    omega
  rw [Payload.ofBytes, if_pos whole]

theorem Column.read_payload {row : Row} {column : Column} (h : Layout.Encodable row column)
    (pos : Nat) :
    ∃ value, row.value? column = some value ∧
      column.read (Payload.ofBytes (Layout.payload pos row column)) = .ok value := by
  cases column with
  | rowKey =>
      obtain ⟨cell, cells, rfl⟩ := List.exists_cons_of_ne_nil (h.1 rfl)
      refine ⟨.scalar cell.row, rfl, ?_⟩
      have fits : (Layout.scalar cell.row).length ≤ Limit.value := h.2
      have read := readScalar_append fits
      change Column.rowKey.read (Payload.ofBytes (Layout.scalar cell.row ++ _)) = _
      rw [Column.read_ofBytes _ (Layout.wordSize_le_scalar _)]
      simp only [Column.read, read]
      rfl
  | family name =>
      refine ⟨.object ⟨row.entries name⟩, rfl, ?_⟩
      have fits : (Layout.object ⟨row.entries name⟩).length ≤ Limit.value := h.2
      have read := Object.read_append fits
      change (Column.family name).read (Payload.ofBytes (Layout.object _ ++ _)) = _
      rw [Column.read_ofBytes _ (Layout.wordSize_le_object _)]
      simp only [Column.read, read]
      rfl
  | leaf name qualifier =>
      refine ⟨.null, rfl, ?_⟩
      have pad := padding_lt (n := wordSize) (pos + 0) (by decide)
      have short : ¬ wordSize ≤ (Layout.payload pos row (.leaf name qualifier)).length := by
        simp only [Layout.payload, Layout.value, Layout.zeros, List.nil_append,
          List.length_replicate, List.length_nil]
        omega
      rw [Payload.ofBytes, if_neg short]
      rfl

theorem Value.ofFrames_payloads {row : Row} {list : List Column}
    (h : ∀ column ∈ list, Layout.Encodable row column) (pos index : Nat) :
    ∃ values, values.map some = list.map row.value? ∧
      Value.ofFrames index ((Layout.payloads row pos list).map .ok) list = .ok values := by
  induction list generalizing pos index with
  | nil => exact ⟨[], rfl, rfl⟩
  | cons column list ih =>
      obtain ⟨value, shown, read⟩ := Column.read_payload (h column (by simp)) (pos + wordSize)
      obtain ⟨values, others, rest⟩ := ih
        (fun column member => h column (List.mem_cons_of_mem _ member))
        (pos + (Layout.column pos row column).length) (index + 1)
      refine ⟨value :: values, by rw [List.map_cons, List.map_cons, shown, others], ?_⟩
      simp only [Layout.payloads, List.map_cons, Value.ofFrames, Except.bind, read, rest]
      rfl

theorem mapM_id_ok {ε α : Type} (items : List α) :
    (items.map Except.ok).mapM (m := Except ε) id = .ok items := by
  induction items with
  | nil => rfl
  | cons item items ih =>
      rw [List.map_cons, List.mapM_cons, ih]
      rfl

theorem wordAt?_frame {body : Bytes}
    (fits : LengthForm.raw.Fits (Layout.frame .raw body).length) (rest : Bytes) :
    (wordAt? (Layout.frame .raw body ++ rest) 0).bind Word.length? =
      some (Layout.frame .raw body).length := by
  rw [Layout.length_frame] at fits ⊢
  rw [wordAt?, List.drop_zero, Layout.frame, List.append_assoc, takeWord?_append]
  exact LengthForm.length?_stored fits

namespace RowFrame

theorem walk_row (pos : Nat) (row : Row) (list : List Column) :
    walk ⟨Layout.row pos row list⟩ =
      ⟨Layout.columns row (pos + wordSize) list ++ ((0 : Word).toBytes ++ []), wordSize, false⟩ := by
  rw [walk, Walk.start, List.append_nil]
  rfl

theorem read_append {pos : Nat} {row : Row} {list : List Column}
    (h : Layout.Writable pos row list) (rest : Bytes) :
    read (Layout.row pos row list ++ rest) = .ok ⟨Layout.row pos row list⟩ := by
  obtain ⟨encodable, fits⟩ := h
  have drained := Layout.drain_columns encodable (pos + wordSize) wordSize []
  rw [← walk_row] at drained
  have size : (Layout.row pos row list).length =
      wordSize + (Layout.columns row (pos + wordSize) list).length + wordSize := by
    rw [Layout.row, Layout.length_frame, List.length_append, Word.length_toBytes, Nat.add_assoc]
  have checked : check ⟨Layout.row pos row list⟩ = .ok ⟨Layout.row pos row list⟩ := by
    rw [check, drained]
    simp only
    rw [mapM_id_ok]
    simp only
    exact if_pos size.symm
  have first : (wordAt? (Layout.row pos row list ++ rest) 0).bind Word.length? =
      some (Layout.row pos row list).length := wordAt?_frame fits rest
  have large : ¬ (Layout.row pos row list).length < 2 * wordSize := by
    rw [size]
    omega
  rw [read, first]
  simp only
  rw [if_neg large, takeBytes?_append]
  exact checked

theorem values_row (pos : Nat) {row : Row} {list : List Column}
    (h : ∀ column ∈ list, Layout.Encodable row column) :
    ∃ values, values.map some = list.map row.value? ∧
      (RowFrame.mk (Layout.row pos row list)).values list = .ok values := by
  have drained := Layout.drain_columns h (pos + wordSize) wordSize []
  obtain ⟨values, shown, read⟩ := Value.ofFrames_payloads h (pos + wordSize) 0
  refine ⟨values, shown, ?_⟩
  rw [RowFrame.values, payloads, walk_row, drained]
  exact read

end RowFrame

end TupleWire
