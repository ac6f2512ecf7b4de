import Mathlib.Data.List.Forall2
import TupleWire.Proofs.Frame.RowReading

/-! Streams of rows. Rows that are written one after the other, behind whatever a buffer
already holds, are read back one after the other, and nothing is left over. -/
namespace TupleWire

/-- Writes rows, each under columns of its own, and gives their lengths. -/
def Write.putRows : List (Row × List Column) → Write (List Nat)
  | [] => return []
  | (row, list) :: rest => do
      let length ← putRow row list
      let lengths ← putRows rest
      return length :: lengths

theorem Write.on_putRows_cons {row : Row} {list : List Column} {rest : List (Row × List Column)}
    {lengths : List Nat} {buf after : Buffer}
    (h : (putRows ((row, list) :: rest)).on buf = (.ok lengths, after)) :
    ∃ tail, Layout.Writable buf.size row list ∧
      lengths = (Layout.row buf.size row list).length :: tail ∧
      (putRows rest).on (buf.append (Layout.row buf.size row list)) = (.ok tail, after) := by
  rw [putRows, on_bind] at h
  cases first : (putRow row list).on buf with
  | mk result next =>
      rw [first] at h
      cases result with
      | error e => cases h
      | ok length =>
          obtain ⟨writable, -, rfl, rfl⟩ := (lays_putRow row list buf).of_ok first
          simp only [on_bind] at h
          split at h
          · next tail last others =>
              rw [on_pure] at h
              obtain ⟨same, rfl⟩ := Prod.mk.inj h
              exact ⟨tail, writable, (Except.ok.inj same).symm, others⟩
          · cases h

namespace RowFrame

def located : (pos : Nat) → List RowFrame → List (Nat × Except Error RowFrame)
  | _, [] => []
  | pos, frame :: rest => (pos, .ok frame) :: located (pos + frame.size) rest

/-- Whatever bytes stand behind it, the frame is read as the row, column by column. -/
def Shows (frame : RowFrame) (row : Row) (list : List Column) : Prop :=
  ∃ values, values.map some = list.map row.value? ∧
    ∀ behind, readRow (frame.bytes ++ behind) list = .ok values

theorem readRow_of_read {bytes : Bytes} {frame : RowFrame} (h : read bytes = .ok frame)
    (list : List Column) : readRow bytes list = frame.values list := by
  rw [readRow, h]
  rfl

theorem shows_row {pos : Nat} {row : Row} {list : List Column}
    (h : Layout.Writable pos row list) : Shows ⟨Layout.row pos row list⟩ row list := by
  obtain ⟨values, shown, read⟩ := values_row pos h.1
  exact ⟨values, shown, fun behind => (readRow_of_read (read_append h behind) list).trans read⟩

theorem stream_append (frame : RowFrame) {rest : Bytes}
    (h : read (frame.bytes ++ rest) = .ok frame) (pos : Nat) :
    stream pos (frame.bytes ++ rest) = (pos, .ok frame) :: stream (pos + frame.size) rest := by
  have large := (size_of_read_eq_ok h).1
  have some : (frame.bytes ++ rest).isEmpty = false := by
    simp only [size, wordSize] at large
    rw [List.isEmpty_eq_false_iff_exists_mem]
    obtain ⟨b, member⟩ := List.exists_mem_of_length_pos (l := frame.bytes) (by omega)
    exact ⟨b, List.mem_append_left _ member⟩
  have behind : (frame.bytes ++ rest).drop frame.size = rest := List.drop_left
  rw [stream, if_neg (by simp [some])]
  split
  · next e failed =>
      rw [h] at failed
      cases failed
  · next found read =>
      rw [h] at read
      cases read
      rw [behind]

theorem stream_putRows (rows : List (Row × List Column)) {buf after : Buffer} {lengths : List Nat}
    (h : (Write.putRows rows).on buf = (.ok lengths, after)) :
    ∃ frames : List RowFrame, after.bytes = buf.bytes ++ (frames.map bytes).flatten ∧
      frames.map size = lengths ∧
      (∀ pos, stream pos (frames.map bytes).flatten = located pos frames) ∧
      List.Forall₂ (fun frame row => Shows frame row.1 row.2) frames rows := by
  induction rows generalizing buf lengths with
  | nil =>
      cases h
      exact ⟨[], (List.append_nil _).symm, rfl, fun pos => by rw [stream]; rfl, .nil⟩
  | cons row rows ih =>
      obtain ⟨row, list⟩ := row
      obtain ⟨tail, writable, rfl, rest⟩ := Write.on_putRows_cons h
      obtain ⟨frames, bytes, sizes, streams, shown⟩ := ih rest
      refine ⟨⟨Layout.row buf.size row list⟩ :: frames, ?_, by rw [List.map_cons, sizes]; rfl,
        fun pos => ?_, .cons (shows_row writable) shown⟩
      · rw [bytes, Buffer.append, List.append_assoc]
        rfl
      · have first := stream_append ⟨Layout.row buf.size row list⟩
          (read_append writable (frames.map RowFrame.bytes).flatten) pos
        rw [List.map_cons, List.flatten_cons, first, streams]
        rfl

end RowFrame

/-- Reading undoes writing for whole streams, behind contents of any length. -/
theorem readRow_of_putRows {buf after : Buffer} {rows : List (Row × List Column)}
    {lengths : List Nat} (written : (Write.putRows rows).on buf = (.ok lengths, after)) :
    ∃ (tail : Bytes) (frames : List RowFrame), after.bytes = buf.bytes ++ tail ∧
      tail = (frames.map RowFrame.bytes).flatten ∧
      RowFrame.stream 0 tail = RowFrame.located 0 frames ∧
      frames.map RowFrame.size = lengths ∧
      List.Forall₂ (fun frame row => frame.Shows row.1 row.2) frames rows := by
  obtain ⟨frames, bytes, sizes, streams, shown⟩ := RowFrame.stream_putRows rows written
  exact ⟨_, frames, bytes, rfl, streams 0, sizes, shown⟩

/-- Two rows behind one byte. The first begins with a NULL of three zeros; the second has
no cells and shows an object without entries. -/
theorem readRow_of_putRows_unaligned :
    (Write.putRows [([⟨[107], [1], [], []⟩], [.leaf [1] [], .rowKey]), ([], [.family [2]])]).on
        ⟨[255], 60⟩ =
      (.ok [27, 20], ⟨[255, 27, 0, 0, 0, 7, 0, 0, 0, 0, 0, 0, 12, 0, 0, 0, 20, 0, 0, 0, 107, 0, 0, 0,
        0, 0, 0, 0, 20, 0, 0, 0, 12, 0, 0, 0, 32, 0, 0, 0, 0, 0, 0, 32, 0, 0, 0, 0], 60⟩) ∧
    ∃ (tail : Bytes) (frames : List RowFrame),
      [255, 27, 0, 0, 0, 7, 0, 0, 0, 0, 0, 0, 12, 0, 0, 0, 20, 0, 0, 0, 107, 0, 0, 0,
        0, 0, 0, 0, 20, 0, 0, 0, 12, 0, 0, 0, 32, 0, 0, 0, 0, 0, 0, 32, 0, 0, 0, 0] = [255] ++ tail ∧
      tail = (frames.map RowFrame.bytes).flatten ∧
      RowFrame.stream 0 tail = RowFrame.located 0 frames ∧
      frames.map RowFrame.size = [27, 20] ∧
      List.Forall₂ (fun frame row => frame.Shows row.1 row.2) frames
        [([⟨[107], [1], [], []⟩], [.leaf [1] [], .rowKey]), ([], [.family [2]])] := by
  have written : (Write.putRows [([⟨[107], [1], [], []⟩], [.leaf [1] [], .rowKey]),
      ([], [.family [2]])]).on ⟨[255], 60⟩ = (.ok [27, 20], ⟨[255, 27, 0, 0, 0, 7, 0, 0, 0, 0, 0, 0,
        12, 0, 0, 0, 20, 0, 0, 0, 107, 0, 0, 0, 0, 0, 0, 0, 20, 0, 0, 0, 12, 0, 0, 0, 32, 0, 0, 0,
        0, 0, 0, 32, 0, 0, 0, 0], 60⟩) := by
    rfl
  exact ⟨written, readRow_of_putRows written⟩

end TupleWire
