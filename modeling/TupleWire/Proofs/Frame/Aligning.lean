import TupleWire.Proofs.Frame.Layout

/-! Frames that begin on a word boundary: they are the same wherever they begin, and they end
on a word boundary again. -/
namespace TupleWire

theorem padding_add {n d : Nat} (pos : Nat) (h : n ∣ d) : padding (pos + d) n = padding pos n := by
  obtain ⟨k, rfl⟩ := h
  rw [padding, padding, Nat.add_mul_mod_self_left]

namespace Layout

variable {d pos : Nat} (r : Row) (list : List Column)

theorem column_add (c : Column) (pos : Nat) (h : wordSize ∣ d) :
    column (pos + d) r c = column pos r c := by
  have shift : pos + d + wordSize + (value r c).length =
      pos + wordSize + (value r c).length + d := by omega
  rw [column, column, payload, payload, shift, padding_add _ h]

theorem columns_add (pos : Nat) (h : wordSize ∣ d) :
    columns r (pos + d) list = columns r pos list := by
  induction list generalizing pos with
  | nil => rfl
  | cons c list ih =>
      have shift : pos + d + (column pos r c).length = pos + (column pos r c).length + d := by omega
      rw [columns, columns, column_add r c pos h, shift, ih]

theorem row_add (pos : Nat) (h : wordSize ∣ d) : row (pos + d) r list = row pos r list := by
  have shift : pos + d + wordSize = pos + wordSize + d := by omega
  rw [row, row, shift, columns_add r list _ h]

theorem row_of_dvd (h : wordSize ∣ pos) : row pos r list = row 0 r list := by
  have moved := row_add r list 0 h
  rwa [Nat.zero_add] at moved

theorem dvd_add_column (c : Column) (pos : Nat) : wordSize ∣ pos + (column pos r c).length := by
  have ends := dvd_add_padding (pos + wordSize + (value r c).length) (n := wordSize) (by decide)
  have length : pos + (column pos r c).length =
      pos + wordSize + (value r c).length +
        padding (pos + wordSize + (value r c).length) wordSize := by
    rw [column, length_frame, payload, List.length_append, zeros, List.length_replicate]
    omega
  rwa [length]

theorem dvd_add_columns (h : wordSize ∣ pos) : wordSize ∣ pos + (columns r pos list).length := by
  induction list generalizing pos with
  | nil => exact h
  | cons c list ih =>
      have rest := ih (dvd_add_column r c pos)
      rwa [columns, List.length_append, ← Nat.add_assoc]

theorem dvd_add_row (h : wordSize ∣ pos) : wordSize ∣ pos + (row pos r list).length := by
  have body := dvd_add_columns r list (Nat.dvd_add h (Nat.dvd_refl wordSize))
  have length : pos + (row pos r list).length =
      pos + wordSize + (columns r (pos + wordSize) list).length + wordSize := by
    rw [row, length_frame, List.length_append, Word.length_toBytes]
    omega
  rw [length]
  exact Nat.dvd_add body (Nat.dvd_refl wordSize)

end Layout

namespace Write

/-- A row that can be written into an empty buffer is written alike into any buffer that ends
on a word boundary and has the room. -/
theorem putRow_of_aligned {row : Row} {list : List Column} {room : Nat} {buf : Buffer}
    {length : Nat} {next : Buffer} (h : (putRow row list).on { limit := room } = (.ok length, next))
    (aligned : wordSize ∣ buf.size) (fits : (Layout.row 0 row list).length ≤ buf.remaining) :
    (putRow row list).on buf =
      (.ok (Layout.row 0 row list).length, buf.append (Layout.row 0 row list)) := by
  obtain ⟨writable, -⟩ := (lays_putRow row list { limit := room }).of_ok h
  have same := Layout.row_of_dvd row list aligned
  have moved : Layout.Writable buf.size row list := by
    rw [Layout.Writable, same]
    exact writable
  have laid := (lays_putRow row list buf).laid moved
  rw [same] at laid
  exact laid fits

end Write

end TupleWire
