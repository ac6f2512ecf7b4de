import Mathlib.Order.Bounds.Basic
import TupleWire.Proofs.Frame.Overrunning

/-! What the failure of a row tells. A row that cannot be written leaves the buffer as it was.
Its failure names the first column that is to show a key where there is none, if the writing
comes so far, and else the place where the room ran out and the column that stands there. -/
namespace TupleWire

namespace Layout

variable {pos : Nat} {row : Row} {list : List Column}

theorem columns_append (row : Row) (pos : Nat) (front back : List Column) :
    columns row pos (front ++ back) =
      columns row pos front ++ columns row (pos + (columns row pos front).length) back := by
  induction front generalizing pos with
  | nil => rfl
  | cons column front ih =>
      simp only [List.cons_append, columns, ih, List.append_assoc, List.length_append, Nat.add_assoc]

theorem columnsPieces_append (row : Row) (pos : Nat) (front back : List Column) :
    columnsPieces row pos (front ++ back) =
      columnsPieces row pos front ++
        columnsPieces row (pos + (columns row pos front).length) back := by
  induction front generalizing pos with
  | nil => rfl
  | cons column front ih =>
      simp only [List.cons_append, columnsPieces, columns, ih, List.append_assoc,
        List.length_append, Nat.add_assoc]

/-- Where the first `count` column frames of a row frame at position `pos` end. -/
def columnsEnd (pos : Nat) (row : Row) (list : List Column) (count : Nat) : Nat :=
  pos + wordSize + (columns row (pos + wordSize) (list.take count)).length

/-- Where column `i` ends. A column that is to show a key that the row does not have comes to
its end behind its own length word. -/
def columnEnd (pos : Nat) (row : Row) (list : List Column) (i : Nat) : Nat :=
  if row = [] ∧ list[i]? = some .rowKey then columnsEnd pos row list i + wordSize
  else columnsEnd pos row list (i + 1)

/-- The row has no key, and column `j` is the first that is to show it. -/
structure Keyless (row : Row) (list : List Column) (j : Nat) : Prop where
  empty : row = []
  asked : list[j]? = some .rowKey
  first : ∀ i < j, list[i]? ≠ some .rowKey

theorem Keyless.unique {i j : Nat} (here : Keyless row list i) (there : Keyless row list j) :
    i = j := by
  rcases Nat.lt_trichotomy i j with less | same | more
  · exact absurd here.asked (there.first i less)
  · exact same
  · exact absurd there.asked (here.first j more)

theorem keyless_of_split {front : List Column} (back : List Column) (unasked : .rowKey ∉ front) :
    Keyless [] (front ++ .rowKey :: back) front.length := by
  refine ⟨rfl, by simp, fun i before same => unasked ?_⟩
  rw [List.getElem?_append_left before] at same
  exact List.mem_of_getElem? same

theorem Keyless.columnEnd {j : Nat} (first : Keyless row list j) (pos : Nat) :
    columnEnd pos row list j = columnsEnd pos row list j + wordSize :=
  if_pos ⟨first.empty, first.asked⟩

/-- The frames of the row, as far as it has them, are not too long for their length words. -/
structure Countable (pos : Nat) (row : Row) (list : List Column) : Prop where
  values : ∀ column ∈ list, (value row column).length ≤ Limit.value
  whole : (.rowKey ∈ list → row ≠ []) → LengthForm.raw.Fits (Layout.row pos row list).length

theorem columnsEnd_append (pos : Nat) (row : Row) (front back : List Column) :
    columnsEnd pos row (front ++ back) front.length =
      pos + wordSize + (columns row (pos + wordSize) front).length := by
  rw [columnsEnd, List.take_left]

theorem columnsEnd_mono {i j : Nat} (h : i ≤ j) :
    columnsEnd pos row list i ≤ columnsEnd pos row list j := by
  obtain ⟨k, rfl⟩ := Nat.exists_eq_add_of_le h
  simp only [columnsEnd, List.take_add, columns_append, List.length_append]
  omega

theorem columnsEnd_add_le {i : Nat} (h : i < list.length) :
    columnsEnd pos row list i + wordSize ≤ columnsEnd pos row list (i + 1) := by
  simp only [columnsEnd, List.take_add_one, List.getElem?_eq_getElem h, Option.toList_some,
    columns_append, List.length_append, columns, column, length_frame]
  omega

theorem columnEnd_le {i : Nat} (h : i < list.length) :
    columnEnd pos row list i ≤ columnsEnd pos row list (i + 1) := by
  unfold columnEnd
  split
  · exact columnsEnd_add_le h
  · exact Nat.le_refl _

theorem isLeast_columnEnd {limit i : Nat} (h : i < list.length)
    (reached : columnsEnd pos row list i ≤ limit) (full : limit < columnEnd pos row list i) :
    IsLeast {i | i < list.length ∧ limit < columnEnd pos row list i} i := by
  refine ⟨⟨h, full⟩, ?_⟩
  rintro k ⟨present, beyond⟩
  by_contra less
  have passed : columnEnd pos row list k ≤ columnsEnd pos row list (k + 1) :=
    columnEnd_le present
  have ordered : columnsEnd pos row list (k + 1) ≤ columnsEnd pos row list i :=
    columnsEnd_mono (by omega)
  omega

theorem stuck_rowPieces {room reach need : Nat} {pieces : List Bytes} (fits : wordSize ≤ room)
    (h : Stuck (room - wordSize) pieces reach need)
    (front : pieces <+: columnsPieces row (pos + wordSize) list ++ [(0 : Word).toBytes]) :
    Stuck room (rowPieces pos row list) (wordSize + reach) need := by
  obtain ⟨rest, whole⟩ := front
  have inner := h.append rest
  rw [whole] at inner
  exact .later fits inner

end Layout

/-- How a row fails at the end of `buf` for want of room: within its frame and in reach of the
limit, at the first piece for which there is no room left. -/
structure Overrun (buf : Buffer) (row : Row) (list : List Column) (e : Error)
    (place need : Nat) : Prop where
  kind : e.kind = .capacity
  fault : e.fault = .bufferFull need (buf.limit - place)
  offset : e.offset = some place
  rowKey : e.rowKey = none
  begun : buf.size ≤ place
  bounded : buf.size ≤ buf.limit → place ≤ buf.limit
  full : buf.limit < place + need
  within : place + need ≤ buf.size + (Layout.row buf.size row list).length
  piece : Layout.Stuck buf.remaining (Layout.rowPieces buf.size row list) (place - buf.size) need

/-- The column that a failure for want of room names: the first that does not fit, and none
where the length word of the row has no room or only the last word. -/
inductive Blamed (buf : Buffer) (row : Row) (list : List Column) : Option Nat → Prop
  | lengthWord (full : buf.limit < buf.size + wordSize) : Blamed buf row list none
  | column {i : Nat} (begun : buf.size + wordSize ≤ buf.limit)
      (least : IsLeast {i | i < list.length ∧
        buf.limit < Layout.columnEnd buf.size row list i} i) : Blamed buf row list (some i)
  | lastWord (fit : ∀ i < list.length, Layout.columnEnd buf.size row list i ≤ buf.limit)
      (full : buf.limit < Layout.columnsEnd buf.size row list list.length + wordSize) :
      Blamed buf row list none

def Buffer.opened (buf : Buffer) : Buffer := buf.append (0 : Word).toBytes

theorem Buffer.size_opened (buf : Buffer) : buf.opened.size = buf.size + wordSize :=
  buf.size_append _

theorem Buffer.remaining_opened (buf : Buffer) :
    buf.opened.remaining = buf.remaining - wordSize := buf.remaining_append _

theorem Buffer.refusal_opened (buf : Buffer) (reach need : Nat) :
    buf.opened.refusal reach need = buf.refusal (wordSize + reach) need :=
  buf.refusal_append _ reach need

theorem Buffer.begun_of_room {buf : Buffer} (room : wordSize ≤ buf.remaining) :
    buf.size + wordSize ≤ buf.limit := by
  unfold Buffer.remaining at room
  simp only [wordSize] at room ⊢
  omega

theorem overrun_of_stuck {buf : Buffer} {row : Row} {list : List Column} {reach need : Nat}
    (stuck : Layout.Stuck buf.remaining (Layout.rowPieces buf.size row list) reach need)
    (column : Option Nat) :
    Overrun buf row list { buf.refusal reach need with column } (buf.size + reach) need := by
  obtain ⟨low, high, inner⟩ := stuck.bounds
  rw [Layout.flatten_rowPieces] at inner
  have left : buf.remaining - reach = buf.limit - (buf.size + reach) := Nat.sub_sub _ _ _
  unfold Buffer.remaining at low high
  exact {
    kind := rfl
    fault := congrArg (Fault.bufferFull need) left
    offset := rfl
    rowKey := rfl
    begun := Nat.le_add_right _ _
    bounded := fun holds => by omega
    full := by omega
    within := by omega
    piece := by rwa [Nat.add_sub_cancel_left] }

namespace Write

open Layout (Stuck)

variable {row : Row} {list : List Column} {buf : Buffer}

theorem putColumns_append (row : Row) (index : Nat) (front back : List Column) :
    putColumns row index (front ++ back) = (do
      putColumns row index front
      putColumns row (index + front.length) back) := by
  induction front generalizing index with
  | nil => exact (pure_bind _ _).symm
  | cons column front ih =>
      simp only [List.cons_append, putColumns, ih, bind_assoc, List.length_cons, Nat.add_assoc,
        Nat.add_comm 1]

/-- Where the pieces of columns get stuck, the first column that does not fit fails there. -/
theorem putColumns_stalls {reach need : Nat} (index : Nat)
    (encodable : ∀ column ∈ list, Layout.Encodable row column)
    (stuck : Stuck buf.remaining (Layout.columnsPieces row buf.size list) reach need) :
    ∃ front column back, list = front ++ column :: back ∧
      (Layout.columns row buf.size front).length ≤ buf.remaining ∧
      buf.remaining < (Layout.columns row buf.size (front ++ [column])).length ∧
      ((putColumns row index list).on buf).1 =
        .error ((buf.refusal reach need).atColumn (index + front.length)) := by
  induction list generalizing index buf reach with
  | nil => cases stuck
  | cons column list ih =>
      have first := encodable column List.mem_cons_self
      rcases stuck.split with inside | ⟨fits, later, rfl, behind⟩
      · obtain ⟨-, full, inner⟩ := inside.bounds
        rw [Layout.flatten_columnPieces] at inner
        refine ⟨[], column, list, rfl, Nat.zero_le _, ?_, ?_⟩
        · simp only [List.nil_append, Layout.columns, List.append_nil]
          omega
        · have failed := stalls_putColumn row column buf first inside
          exact on_bind_error (on_mapError_error failed (·.atColumn index)) _
      · rw [Layout.flatten_columnPieces] at fits behind
        rw [← Buffer.remaining_append, ← Buffer.size_append] at behind
        obtain ⟨front, next, back, rfl, low, high, failed⟩ := ih (index + 1)
          (fun column member => encodable column (List.mem_cons_of_mem _ member)) behind
        rw [Buffer.remaining_append, Buffer.size_append] at low high
        refine ⟨column :: front, next, back, rfl, ?_, ?_, ?_⟩
        · simp only [Layout.columns, List.length_append]
          omega
        · simp only [List.cons_append, Layout.columns, List.length_append] at high ⊢
          omega
        · have laid := ((lays_putColumn row column buf).mapError (·.atColumn index)).laid first fits
          rw [putColumns, on_bind, laid, Layout.flatten_columnPieces, ← Buffer.refusal_append,
            List.length_cons, Nat.add_comm front.length, ← Nat.add_assoc]
          exact failed

theorem putColumn_keyless (buf : Buffer) :
    ((putColumn [] .rowKey).on buf).1 =
      .error (if wordSize ≤ buf.remaining then { fault := .rowWithoutKey }
        else buf.refusal 0 wordSize) := by
  rw [putColumn_eq]
  apply on_discard_error
  split
  · next room => exact framed_error room (on_bind_error rfl _)
  · next full => exact framed_full full

theorem blamed_of_split {front back : List Column} {column : Column}
    (begun : buf.size + wordSize ≤ buf.limit) (whole : list = front ++ column :: back)
    (low : (Layout.columns row (buf.size + wordSize) front).length ≤ buf.remaining - wordSize)
    (high : buf.limit < Layout.columnEnd buf.size row list front.length) :
    Blamed buf row list (some front.length) := by
  have reached := Layout.columnsEnd_append buf.size row front (column :: back)
  rw [← whole] at reached
  have present : front.length < list.length := by
    rw [whole, List.length_append, List.length_cons]
    omega
  unfold Buffer.remaining at low
  exact .column begun (Layout.isLeast_columnEnd present (by omega) high)

theorem columnEnd_of_split {front back : List Column} {column : Column}
    (shown : column = .rowKey → row ≠ []) (pos : Nat) :
    Layout.columnEnd pos row (front ++ column :: back) front.length =
      pos + wordSize + (Layout.columns row (pos + wordSize) (front ++ [column])).length := by
  have here : (front ++ column :: back)[front.length]? = some column := by simp
  have keyed : ¬ (row = [] ∧ (front ++ column :: back)[front.length]? = some .rowKey) := by
    rintro ⟨empty, asked⟩
    rw [here] at asked
    exact shown (Option.some.inj asked) empty
  have next := Layout.columnsEnd_append pos row (front ++ [column]) back
  rw [List.append_assoc, List.singleton_append, List.length_append, List.length_singleton] at next
  rw [Layout.columnEnd, if_neg keyed, next]

/-- How a row fails. -/
inductive RowFails (buf : Buffer) (row : Row) (list : List Column) : Error → Prop
  | keyless {j : Nat} (first : Layout.Keyless row list j)
      (room : Layout.columnsEnd buf.size row list j + wordSize ≤ buf.limit) :
      RowFails buf row list { fault := .rowWithoutKey, column := some j }
  | overrun {reach need : Nat} {column : Option Nat}
      (stuck : Stuck buf.remaining (Layout.rowPieces buf.size row list) reach need)
      (blamed : Blamed buf row list column)
      (keyed : ∀ j, Layout.Keyless row list j →
        buf.limit < Layout.columnsEnd buf.size row list j + wordSize) :
      RowFails buf row list { buf.refusal reach need with column }

theorem putRow_error {e : Error} (room : wordSize ≤ buf.remaining)
    (failed : ((do
      putColumns row 0 list
      putWord 0 : Write Unit).on buf.opened).1 = .error e) :
    ((putRow row list).on buf).1 = .error e := by
  rw [putRow_eq]
  exact on_atomically_error (framed_error room failed)

variable {whole rest : List Column}

theorem rowFails_of_columns (room : wordSize ≤ buf.remaining)
    (encodable : ∀ column ∈ whole, Layout.Encodable row column)
    (full : buf.remaining - wordSize <
      (Layout.columns row (buf.size + wordSize) whole).length)
    (keyed : ∀ j, Layout.Keyless row (whole ++ rest) j →
      buf.limit < Layout.columnsEnd buf.size row (whole ++ rest) j + wordSize) :
    ∃ e, RowFails buf row (whole ++ rest) e ∧
      ((putRow row (whole ++ rest)).on buf).1 = .error e := by
  rw [← Layout.flatten_columnsPieces] at full
  obtain ⟨reach, need, stuck⟩ := Layout.exists_stuck full
  have inner := stuck
  rw [← buf.size_opened, ← buf.remaining_opened] at inner
  obtain ⟨front, column, back, split, low, high, failed⟩ := putColumns_stalls 0 encodable inner
  rw [buf.remaining_opened, buf.size_opened] at low high
  have begun : buf.size + wordSize ≤ buf.limit := Buffer.begun_of_room room
  have shown : column = .rowKey → row ≠ [] := (encodable column (by simp [split])).1
  have list : whole ++ rest = front ++ column :: (back ++ rest) := by simp [split]
  have pieces : Layout.columnsPieces row (buf.size + wordSize) whole <+:
      Layout.columnsPieces row (buf.size + wordSize) (whole ++ rest) ++ [(0 : Word).toBytes] := by
    rw [Layout.columnsPieces_append, List.append_assoc]
    exact List.prefix_append _ _
  refine ⟨_, .overrun (Layout.stuck_rowPieces room stuck pieces)
    (blamed_of_split begun list low ?_) keyed, putRow_error room (on_bind_error ?_ _)⟩
  · rw [list, columnEnd_of_split shown]
    unfold Buffer.remaining at high
    omega
  · rw [putColumns_append]
    refine on_bind_error (failed.trans ?_) _
    rw [buf.refusal_opened, Nat.zero_add]
    rfl

theorem rowFails_of_lastWord (room : wordSize ≤ buf.remaining)
    (encodable : ∀ column ∈ list, Layout.Encodable row column)
    (fits : (Layout.columns row (buf.size + wordSize) list).length ≤ buf.remaining - wordSize)
    (full : buf.remaining - wordSize <
      (Layout.columns row (buf.size + wordSize) list).length + wordSize)
    (keyed : ∀ j, Layout.Keyless row list j →
      buf.limit < Layout.columnsEnd buf.size row list j + wordSize) :
    ∃ e, RowFails buf row list e ∧ ((putRow row list).on buf).1 = .error e := by
  have last := Layout.columnsEnd_append buf.size row list []
  rw [List.append_nil] at last
  have stuck : Stuck (buf.remaining - wordSize -
      (Layout.columnsPieces row (buf.size + wordSize) list).flatten.length)
      [(0 : Word).toBytes] 0 wordSize := by
    rw [Layout.flatten_columnsPieces]
    exact .here (by rw [Word.length_toBytes]; omega)
  have behind := stuck.behind (by rwa [Layout.flatten_columnsPieces])
  refine ⟨_, .overrun (Layout.stuck_rowPieces room behind (List.prefix_refl _))
    (.lastWord (fun i present => ?_) ?_) keyed, putRow_error room ?_⟩
  · have passed : Layout.columnEnd buf.size row list i ≤
        Layout.columnsEnd buf.size row list (i + 1) := Layout.columnEnd_le present
    have ordered : Layout.columnsEnd buf.size row list (i + 1) ≤
        Layout.columnsEnd buf.size row list list.length := Layout.columnsEnd_mono present
    unfold Buffer.remaining at fits room
    simp only [wordSize] at *
    omega
  · unfold Buffer.remaining at full
    omega
  · have laid := (lays_putColumns row list 0 buf.opened).laid encodable
    rw [buf.size_opened, buf.remaining_opened] at laid
    rw [← buf.remaining_opened, Layout.flatten_columnsPieces, ← Buffer.remaining_append] at stuck
    have failed := Stalls.put _ (0 : Word).toBytes trivial stuck
    rw [on_bind, laid fits]
    refine failed.trans ?_
    rw [Buffer.refusal_append, buf.refusal_opened, Layout.flatten_columnsPieces]
    rfl

theorem putColumns_error {front : List Column} {column : Column} {data : Bytes} {e : Error}
    (index : Nat) (back : List Column)
    (laid : (putColumns row index front).on buf = (.ok (), buf.append data))
    (failed : ((putColumn row column).on (buf.append data)).1 = .error e) :
    ((putColumns row index (front ++ column :: back)).on buf).1 =
      .error (e.atColumn (index + front.length)) := by
  rw [putColumns_append, on_bind, laid]
  exact on_bind_error (on_mapError_error failed _) _

theorem stuck_at_keyless {front : List Column} {room : Nat} (pos : Nat) (back : List Column)
    (fits : (Layout.columns [] pos front).length ≤ room)
    (full : room < (Layout.columns [] pos front).length + wordSize) :
    Stuck room (Layout.columnsPieces [] pos (front ++ .rowKey :: back))
      (Layout.columns [] pos front).length wordSize := by
  rw [Layout.columnsPieces_append]
  simp only [← Layout.flatten_columnsPieces] at fits full ⊢
  exact Stuck.behind fits (.here (by rw [Word.length_toBytes]; omega))

/-- Of a row without cells the columns before the first key are written, and then the length
word of that key's column or nothing. -/
theorem putRow_keyless_error {front : List Column} (back : List Column)
    (room : wordSize ≤ buf.remaining)
    (encodable : ∀ column ∈ front, Layout.Encodable [] column)
    (fits : (Layout.columns [] (buf.size + wordSize) front).length ≤ buf.remaining - wordSize) :
    ((putRow [] (front ++ .rowKey :: back)).on buf).1 =
      .error (Error.atColumn
        (if wordSize ≤ buf.remaining - wordSize -
            (Layout.columns [] (buf.size + wordSize) front).length then { fault := .rowWithoutKey }
          else buf.refusal
            (wordSize + (Layout.columns [] (buf.size + wordSize) front).length) wordSize)
        front.length) := by
  have laid := (lays_putColumns [] front 0 buf.opened).laid encodable
  rw [buf.size_opened, buf.remaining_opened] at laid
  have failed := putRow_error room (on_bind_error
    (putColumns_error 0 back (laid fits) (putColumn_keyless _)) _)
  rwa [Buffer.remaining_append, Buffer.refusal_append, buf.remaining_opened, buf.refusal_opened,
    Nat.zero_add] at failed

theorem rowFails_of_keyless_full {front : List Column} (back : List Column)
    (room : wordSize ≤ buf.remaining) (unasked : .rowKey ∉ front)
    (fits : (Layout.columns [] (buf.size + wordSize) front).length ≤ buf.remaining - wordSize)
    (full : ¬ wordSize ≤ buf.remaining - wordSize -
      (Layout.columns [] (buf.size + wordSize) front).length) :
    RowFails buf [] (front ++ .rowKey :: back)
      ((buf.refusal (wordSize + (Layout.columns [] (buf.size + wordSize) front).length)
        wordSize).atColumn front.length) := by
  have first := Layout.keyless_of_split back unasked
  have reached := Layout.columnsEnd_append buf.size [] front (.rowKey :: back)
  have beyond : buf.limit < Layout.columnsEnd buf.size [] (front ++ .rowKey :: back) front.length +
      wordSize := by
    unfold Buffer.remaining at full
    omega
  have stuck : Stuck (buf.remaining - wordSize) _ _ _ :=
    stuck_at_keyless (buf.size + wordSize) back fits (by omega)
  refine .overrun (Layout.stuck_rowPieces room stuck (List.prefix_append _ _))
    (blamed_of_split (Buffer.begun_of_room room) rfl fits ?_) fun j other => ?_
  · rwa [first.columnEnd]
  · rwa [other.unique first]

theorem rowFails_of_keyless {front back : List Column} (room : wordSize ≤ buf.remaining)
    (unasked : .rowKey ∉ front)
    (values : ∀ column ∈ front, (Layout.value [] column).length ≤ Limit.value) :
    ∃ e, RowFails buf [] (front ++ .rowKey :: back) e ∧
      ((putRow [] (front ++ .rowKey :: back)).on buf).1 = .error e := by
  have encodable : ∀ column ∈ front, Layout.Encodable [] column := fun column member =>
    ⟨fun same => absurd (same ▸ member) unasked, values column member⟩
  have first := Layout.keyless_of_split back unasked
  have reached := Layout.columnsEnd_append buf.size [] front (.rowKey :: back)
  by_cases fits : (Layout.columns [] (buf.size + wordSize) front).length ≤ buf.remaining - wordSize
  case neg =>
    refine rowFails_of_columns room encodable (Nat.not_le.mp fits) fun j other => ?_
    rw [other.unique first, reached]
    unfold Buffer.remaining at fits
    omega
  refine ⟨_, ?_, putRow_keyless_error back room encodable fits⟩
  split
  case isTrue enough =>
    refine .keyless first ?_
    have begun : buf.size + wordSize ≤ buf.limit := Buffer.begun_of_room room
    rw [reached]
    unfold Buffer.remaining at enough
    simp only [wordSize] at enough ⊢
    omega
  case isFalse full => exact rowFails_of_keyless_full back room unasked fits full

theorem putRow_keyless_fails (room : wordSize ≤ buf.remaining) (asked : .rowKey ∈ list)
    (values : ∀ column ∈ list, (Layout.value [] column).length ≤ Limit.value) :
    ∃ e, RowFails buf [] list e ∧ ((putRow [] list).on buf).1 = .error e := by
  obtain ⟨front, back, rfl, unasked⟩ := List.eq_append_cons_of_mem asked
  exact rowFails_of_keyless room unasked fun column member =>
    values column (List.mem_append_left _ member)

theorem putRow_keyed_fails (room : wordSize ≤ buf.remaining)
    (encodable : ∀ column ∈ list, Layout.Encodable row column)
    (full : buf.remaining < (Layout.row buf.size row list).length) :
    ∃ e, RowFails buf row list e ∧ ((putRow row list).on buf).1 = .error e := by
  have keyed : ∀ j, Layout.Keyless row list j →
      buf.limit < Layout.columnsEnd buf.size row list j + wordSize := fun j first =>
    absurd first.empty ((encodable .rowKey (List.mem_of_getElem? first.asked)).1 rfl)
  simp only [Layout.row, Layout.length_frame, List.length_append, Word.length_toBytes] at full
  by_cases fits : (Layout.columns row (buf.size + wordSize) list).length ≤ buf.remaining - wordSize
  · exact rowFails_of_lastWord room encodable fits (by omega) keyed
  · rw [← List.append_nil list] at keyed ⊢
    exact rowFails_of_columns room encodable (Nat.not_le.mp fits) keyed

theorem putRow_full (full : ¬ wordSize ≤ buf.remaining) :
    ∃ e, RowFails buf row list e ∧ ((putRow row list).on buf).1 = .error e := by
  have short : buf.limit < buf.size + wordSize := by
    unfold Buffer.remaining at full
    omega
  have failed : ((putRow row list).on buf).1 = .error (buf.refusal 0 wordSize) := by
    rw [putRow_eq]
    exact on_atomically_error (framed_full full)
  refine ⟨_, .overrun (.here (Nat.not_le.mp full)) (.lengthWord short) fun j first => ?_, failed⟩
  unfold Layout.columnsEnd
  omega

theorem rowFails_of_error {e : Error} (within : Layout.Countable buf.size row list)
    (failed : ((putRow row list).on buf).1 = .error e) : RowFails buf row list e := by
  obtain ⟨given, fails, same⟩ : ∃ e, RowFails buf row list e ∧
      ((putRow row list).on buf).1 = .error e := by
    by_cases room : wordSize ≤ buf.remaining
    case neg => exact putRow_full room
    by_cases keyed : .rowKey ∈ list → row ≠ []
    case neg =>
      obtain ⟨asked, empty⟩ := Classical.not_imp.mp keyed
      obtain rfl := not_not.mp empty
      exact putRow_keyless_fails room asked within.values
    have encodable : ∀ column ∈ list, Layout.Encodable row column := fun column member =>
      ⟨fun same => keyed (same ▸ member), within.values column member⟩
    refine putRow_keyed_fails room encodable ?_
    by_contra fits
    have laid := (lays_putRow row list buf).laid ⟨encodable, within.whole keyed⟩ (by omega)
    rw [laid] at failed
    cases failed
  rw [same] at failed
  cases failed
  exact fails

/-- A row that fails leaves the buffer as it was. Where a row without cells comes to the first
column that is to show a key, the failure says so and names that column. Else it is for want of
room: it tells the first place where the row did not fit, and the column that stands there. -/
theorem putRow_failure_located {e : Error} {after : Buffer}
    (within : Layout.Countable buf.size row list)
    (failed : (putRow row list).on buf = (.error e, after)) :
    after = buf ∧
    (∀ j, Layout.Keyless row list j →
      Layout.columnsEnd buf.size row list j + wordSize ≤ buf.limit →
      e = { fault := .rowWithoutKey, column := some j } ∧ e.kind = .malformed) ∧
    ((∀ j, Layout.Keyless row list j →
        buf.limit < Layout.columnsEnd buf.size row list j + wordSize) →
      ∃ place need, Overrun buf row list e place need ∧ Blamed buf row list e.column) := by
  have fails : RowFails buf row list e := by
    refine rowFails_of_error within ?_
    rw [failed]
  refine ⟨?_, ?_, ?_⟩
  · rcases on_putRow row list buf with laid | ⟨given, unchanged⟩
    · rw [laid] at failed
      cases failed
    · rw [unchanged] at failed
      cases failed
      rfl
  · intro j here room
    cases fails with
    | keyless first =>
        obtain rfl := first.unique here
        exact ⟨rfl, rfl⟩
    | overrun stuck blamed keyed => exact absurd room (Nat.not_le.mpr (keyed j here))
  · intro unreached
    cases fails with
    | keyless first room => exact absurd room (Nat.not_le.mpr (unreached _ first))
    | overrun stuck blamed keyed => exact ⟨_, _, overrun_of_stuck stuck _, blamed⟩

/-- Behind one byte, a row of a key and of an object. The room ends within the length words of
the object, of which the second should stand at position 32. Without cells the second column
has no key, and there is room for its length word. -/
theorem putRow_failure_located_within_object :
    ((putRow [⟨[107], [1], [2], [3]⟩] [.rowKey, .family [1]]).on ⟨[255], 35⟩ =
        (.error { fault := .bufferFull 4 3, column := some 1, offset := some 32 }, ⟨[255], 35⟩) ∧
      Layout.Countable 1 [⟨[107], [1], [2], [3]⟩] [.rowKey, .family [1]] ∧
      ∃ place need, Overrun ⟨[255], 35⟩ [⟨[107], [1], [2], [3]⟩] [.rowKey, .family [1]]
          { fault := .bufferFull 4 3, column := some 1, offset := some 32 } place need ∧
        Blamed ⟨[255], 35⟩ [⟨[107], [1], [2], [3]⟩] [.rowKey, .family [1]] (some 1)) ∧
    (putRow [] [.leaf [1] [], .rowKey]).on ⟨[255], 16⟩ =
        (.error { fault := .rowWithoutKey, column := some 1 }, ⟨[255], 16⟩) ∧
      Layout.Countable 1 [] [.leaf [1] [], .rowKey] ∧
      Layout.Keyless [] [.leaf [1] [], .rowKey] 1 ∧
      Layout.columnsEnd 1 [] [.leaf [1] [], .rowKey] 1 + wordSize ≤ 16 ∧
      ({ fault := .rowWithoutKey, column := some 1 } : Error).kind = .malformed := by
  have full : (putRow [⟨[107], [1], [2], [3]⟩] [.rowKey, .family [1]]).on ⟨[255], 35⟩ =
      (.error { fault := .bufferFull 4 3, column := some 1, offset := some 32 },
        ⟨[255], 35⟩) := rfl
  have short : Layout.Countable (Buffer.mk [255] 35).size [⟨[107], [1], [2], [3]⟩]
      [.rowKey, .family [1]] := ⟨by decide, fun _ => by decide⟩
  have keyless : (putRow [] [.leaf [1] [], .rowKey]).on ⟨[255], 16⟩ =
      (.error { fault := .rowWithoutKey, column := some 1 }, ⟨[255], 16⟩) := rfl
  have unkeyed : Layout.Countable (Buffer.mk [255] 16).size [] [.leaf [1] [], .rowKey] :=
    ⟨by decide, fun keyed => absurd rfl (keyed (by decide))⟩
  have first : Layout.Keyless [] [.leaf [1] [], .rowKey] 1 := ⟨rfl, rfl, by decide⟩
  have room : Layout.columnsEnd 1 [] [.leaf [1] [], .rowKey] 1 + wordSize ≤ 16 := by decide
  exact ⟨⟨full, short, (putRow_failure_located short full).2.2 fun j none =>
    absurd none.empty (by decide)⟩, keyless, unkeyed, first, room,
    ((putRow_failure_located unkeyed keyless).2.1 1 first room).2⟩

end Write

end TupleWire
