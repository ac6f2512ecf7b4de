import Mathlib.Order.Bounds.Basic
import TupleWire.Proofs.Frame.Aligning

/-! The layout of a row, said of bytes and positions alone, and the rule for writing it: a row
is written exactly where it has such a layout, the layout fits and its lengths can be told, and
then the layout is what is written. -/
namespace TupleWire

theorem padding_isLeast {n : Nat} (pos : Nat) (h : 0 < n) :
    IsLeast {k | n ∣ pos + k} (padding pos n) := by
  refine ⟨dvd_add_padding pos h, fun k reaches => ?_⟩
  by_contra less
  have short := padding_lt pos h
  have apart : n ∣ pos + padding pos n - (pos + k) := Nat.dvd_sub (dvd_add_padding pos h) reaches
  have far := Nat.le_of_dvd (by omega) apart
  omega

namespace Layout

/-- The value frame of a row under a column. A row without cells has none for its key. -/
inductive IsValue (row : Row) : Column → Bytes → Prop
  | rowKey {key : Bytes} (first : row.key? = some key) : IsValue row .rowKey (scalar key)
  | family (name : Bytes) : IsValue row (.family name) (object ⟨row.entries name⟩)
  | leaf (family qualifier : Bytes) : IsValue row (.leaf family qualifier) []

/-- Column frames, one behind the other, with the value frames in them. The first begins at
position `pos`; each ends at the next multiple of a word. -/
inductive IsColumns (row : Row) : (pos : Nat) → List Column → List Bytes → Bytes → Prop
  | nil (pos : Nat) : IsColumns row pos [] [] []
  | cons {pos pad : Nat} {column : Column} {list : List Column} {value rest : Bytes}
      {values : List Bytes} (shown : IsValue row column value)
      (least : IsLeast {k | wordSize ∣ pos + wordSize + value.length + k} pad)
      (others : IsColumns row (pos + (wordSize + value.length + pad)) list values rest) :
      IsColumns row pos (column :: list) (value :: values)
        (frame .raw (value ++ zeros pad) ++ rest)

/-- A row frame at position `pos`: its length, the column frames and a zero word. -/
inductive IsRow (row : Row) (pos : Nat) (list : List Column) (values : List Bytes) : Bytes → Prop
  | mk {body : Bytes} (inner : IsColumns row (pos + wordSize) list values body) :
      IsRow row pos list values (frame .raw (body ++ (0 : Word).toBytes))

variable {row : Row} {pos : Nat} {list : List Column} {values : List Bytes} {bytes : Bytes}

theorem isValue_iff {column : Column} :
    IsValue row column bytes ↔ (column = .rowKey → row ≠ []) ∧ bytes = value row column := by
  constructor
  · intro h
    cases h with
    | rowKey first =>
        cases row with
        | nil => cases first
        | cons cell cells =>
            cases first
            exact ⟨fun _ => List.cons_ne_nil _ _, rfl⟩
    | family name => exact ⟨nofun, rfl⟩
    | leaf family qualifier => exact ⟨nofun, rfl⟩
  · rintro ⟨keyed, rfl⟩
    cases column with
    | rowKey =>
        obtain ⟨cell, cells, rfl⟩ := List.exists_cons_of_ne_nil (keyed rfl)
        exact .rowKey rfl
    | family name => exact .family name
    | leaf family qualifier => exact .leaf family qualifier

theorem length_column (pos : Nat) (row : Row) (c : Column) :
    (column pos row c).length = wordSize + (value row c).length +
      padding (pos + wordSize + (value row c).length) wordSize := by
  simp only [column, payload, zeros, length_frame, List.length_append, List.length_replicate]
  omega

/-- The layout by recursion is the one that the rules allow. -/
theorem isColumns_iff : IsColumns row pos list values bytes ↔
    (.rowKey ∈ list → row ≠ []) ∧ values = list.map (value row) ∧ bytes = columns row pos list := by
  induction list generalizing pos values bytes with
  | nil =>
      constructor
      · intro h
        cases h
        exact ⟨nofun, rfl, rfl⟩
      · rintro ⟨-, rfl, rfl⟩
        exact .nil pos
  | cons c list ih =>
      have least := padding_isLeast (pos + wordSize + (value row c).length) (n := wordSize)
        (by decide)
      constructor
      · intro h
        cases h with
        | cons shown only others =>
            obtain ⟨keyed, rfl⟩ := isValue_iff.mp shown
            obtain rfl := only.unique least
            rw [← length_column] at others
            obtain ⟨keyedRest, rfl, rfl⟩ := ih.mp others
            refine ⟨fun member => ?_, rfl, rfl⟩
            rcases List.mem_cons.mp member with first | later
            · exact keyed first.symm
            · exact keyedRest later
      · rintro ⟨keyed, rfl, rfl⟩
        have shown : IsValue row c (value row c) :=
          isValue_iff.mpr ⟨fun first => keyed (first ▸ List.mem_cons_self), rfl⟩
        refine .cons shown least ?_
        rw [← length_column]
        exact ih.mpr ⟨fun later => keyed (List.mem_cons_of_mem _ later), rfl, rfl⟩

theorem isRow_iff : IsRow row pos list values bytes ↔
    (.rowKey ∈ list → row ≠ []) ∧ values = list.map (value row) ∧
      bytes = Layout.row pos row list := by
  constructor
  · rintro ⟨inner⟩
    obtain ⟨keyed, shown, rfl⟩ := isColumns_iff.mp inner
    exact ⟨keyed, shown, rfl⟩
  · rintro ⟨keyed, shown, rfl⟩
    exact .mk (isColumns_iff.mpr ⟨keyed, shown, rfl⟩)

/-- The rows have the same key and the same entries under the families of the list. -/
structure SameShown (row other : Row) (list : List Column) : Prop where
  key : other.key? = row.key?
  entries : ∀ name, .family name ∈ list → other.entries name = row.entries name

theorem SameShown.refl (row : Row) (list : List Column) : SameShown row row list :=
  ⟨rfl, fun _ _ => rfl⟩

theorem SameShown.tail {other : Row} {c : Column} (same : SameShown row other (c :: list)) :
    SameShown row other list :=
  ⟨same.key, fun name member => same.entries name (List.mem_cons_of_mem c member)⟩

theorem value_congr {other : Row} (same : SameShown row other list) {c : Column}
    (member : c ∈ list) : value other c = value row c := by
  cases c with
  | rowKey => simp only [value, same.key]
  | family name => simp only [value, same.entries name member]
  | leaf family qualifier => rfl

theorem columns_congr {other : Row} (same : SameShown row other list) (pos : Nat) :
    columns other pos list = columns row pos list := by
  induction list generalizing pos with
  | nil => rfl
  | cons c list ih =>
      have first : column pos other c = column pos row c := by
        simp only [column, payload, value_congr same List.mem_cons_self]
      simp only [columns, first, ih same.tail]

theorem row_mod (row : Row) (list : List Column) (pos : Nat) :
    Layout.row (pos % wordSize) row list = Layout.row pos row list := by
  have moved := row_add row list (pos % wordSize) (Nat.dvd_mul_right wordSize (pos / wordSize))
  rw [Nat.mod_add_div] at moved
  exact moved.symm

theorem row_congr {other : Row} (same : SameShown row other list) {pos' : Nat}
    (place : pos' % wordSize = pos % wordSize) :
    Layout.row pos' other list = Layout.row pos row list := by
  calc Layout.row pos' other list = Layout.row (pos' % wordSize) other list :=
        (row_mod other list pos').symm
    _ = Layout.row (pos % wordSize) other list := by rw [place]
    _ = Layout.row (pos % wordSize) row list := by
        simp only [Layout.row, columns_congr same]
    _ = Layout.row pos row list := row_mod row list pos

end Layout

namespace Write

section Congr

variable {row other : Row} {list : List Column}

theorem putValue_congr (same : Layout.SameShown row other list) {column : Column}
    (member : column ∈ list) : putValue other column = putValue row column := by
  cases column with
  | rowKey => simp only [putValue, same.key]
  | family name => simp only [putValue, same.entries name member]
  | leaf family qualifier => rfl

theorem putColumns_congr (same : Layout.SameShown row other list) (index : Nat) :
    putColumns other index list = putColumns row index list := by
  induction list generalizing index with
  | nil => rfl
  | cons column list ih =>
      have first : putColumn other column = putColumn row column := by
        simp only [putColumn, putValue_congr same List.mem_cons_self]
      rw [putColumns, putColumns, first, ih same.tail]

/-- Of a row nothing is written but what the columns show, and nothing else can make the writing
of it fail. -/
theorem putRow_congr (same : Layout.SameShown row other list) :
    putRow other list = putRow row list := by
  simp only [putRow, putColumns_congr same]

end Congr

/-- A row is written exactly if its frame can be told and fits, and then the frame is what the
buffer gains. -/
theorem putRow_eq_ok_iff {row : Row} {list : List Column} {buf after : Buffer} {length : Nat} :
    (putRow row list).on buf = (.ok length, after) ↔
      Layout.Writable buf.size row list ∧
        (Layout.row buf.size row list).length ≤ buf.remaining ∧
        length = (Layout.row buf.size row list).length ∧
        after = buf.append (Layout.row buf.size row list) := by
  constructor
  · exact (lays_putRow row list buf).of_ok
  · rintro ⟨writable, fits, rfl, rfl⟩
    exact (lays_putRow row list buf).laid writable fits

/-- A row is written exactly if it has a frame at the end of the buffer, which fits there and
of which the values and the whole can be told. It is that frame that is appended, and nothing
else changes. Of the buffer only the place within a word matters to it, and of the row only what
the columns show. -/
theorem putRow_follows_layout (row : Row) (list : List Column) (buf : Buffer) :
    ((∃ values frame, Layout.IsRow row buf.size list values frame) ↔
      (.rowKey ∈ list → row ≠ [])) ∧
    (∀ values frame values' frame', Layout.IsRow row buf.size list values frame →
      Layout.IsRow row buf.size list values' frame' → values' = values ∧ frame' = frame) ∧
    (∀ length after, (putRow row list).on buf = (.ok length, after) ↔
      ∃ values frame, Layout.IsRow row buf.size list values frame ∧
        buf.size + frame.length ≤ buf.limit ∧ (∀ value ∈ values, value.length ≤ Limit.value) ∧
        frame.length < 0x80000000 ∧ length = frame.length ∧
        after = { bytes := buf.bytes ++ frame, limit := buf.limit }) ∧
    ∀ (other : Row) (buf' : Buffer), Layout.SameShown row other list →
      buf'.size % wordSize = buf.size % wordSize →
      ∀ length after length' after', (putRow row list).on buf = (.ok length, after) →
        (putRow other list).on buf' = (.ok length', after') →
          length' = length ∧ after'.bytes.drop buf'.size = after.bytes.drop buf.size := by
  refine ⟨?_, ?_, ?_, ?_⟩
  · constructor
    · rintro ⟨values, frame, h⟩
      exact (Layout.isRow_iff.mp h).1
    · intro keyed
      exact ⟨_, _, Layout.isRow_iff.mpr ⟨keyed, rfl, rfl⟩⟩
  · intro values frame values' frame' h h'
    obtain ⟨-, rfl, rfl⟩ := Layout.isRow_iff.mp h
    obtain ⟨-, rfl, rfl⟩ := Layout.isRow_iff.mp h'
    exact ⟨rfl, rfl⟩
  · intro length after
    have some : 0 < (Layout.row buf.size row list).length := by
      simp only [Layout.row, Layout.length_frame, wordSize]
      omega
    constructor
    · intro written
      obtain ⟨writable, fits, rfl, rfl⟩ := putRow_eq_ok_iff.mp written
      have keyed : .rowKey ∈ list → row ≠ [] := fun member => (writable.1 _ member).1 rfl
      refine ⟨_, _, Layout.isRow_iff.mpr ⟨keyed, rfl, rfl⟩, ?_, ?_, writable.2, rfl, rfl⟩
      · unfold Buffer.remaining at fits
        omega
      · intro value member
        obtain ⟨column, shown, rfl⟩ := List.mem_map.mp member
        exact (writable.1 column shown).2
    · rintro ⟨values, frame, h, room, short, fits, rfl, rfl⟩
      obtain ⟨keyed, rfl, rfl⟩ := Layout.isRow_iff.mp h
      have encodable : ∀ column ∈ list, Layout.Encodable row column := fun column member =>
        ⟨fun same => keyed (same ▸ member), short _ (List.mem_map_of_mem member)⟩
      refine putRow_eq_ok_iff.mpr ⟨⟨encodable, fits⟩, ?_, rfl, rfl⟩
      unfold Buffer.remaining
      omega
  · intro other buf' same place length after length' after' written written'
    obtain ⟨-, -, rfl, rfl⟩ := putRow_eq_ok_iff.mp written
    obtain ⟨-, -, rfl, rfl⟩ := putRow_eq_ok_iff.mp written'
    rw [Layout.row_congr same place]
    refine ⟨rfl, ?_⟩
    simp only [Buffer.append, Buffer.size, List.drop_left]

end Write

end TupleWire
