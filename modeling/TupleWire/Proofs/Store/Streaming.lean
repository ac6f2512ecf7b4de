import TupleWire.Proofs.Frame.Corrupting
import TupleWire.Proofs.Scan.Delivering
import TupleWire.Proofs.Scan.Encoding
import TupleWire.Proofs.Store.Selecting

/-! A table from its changes to the receiver of its scan: each row that is to show arrives
once, in key order, with what was written last, and then the stream ends. -/
namespace TupleWire

def Layout.message (row : Row) (list : List Column) : Bytes :=
  Message.rowTag.toBytes ++ (columns row wordSize list ++ (0 : Word).toBytes)

namespace Message

theorem wrap_row (row : Row) (list : List Column) :
    wrap (Layout.row 0 row list) = .ok (Layout.message row list) := by
  rw [wrap, Layout.row, Layout.frame, takeWord?_append, Layout.message, Nat.zero_add]

theorem read_message (row : Row) (list : List Column) :
    read (Layout.message row list) = .ok
      (.row ⟨Layout.columns row wordSize list ++ ((0 : Word).toBytes ++ []), wordSize, false⟩) := by
  rw [read, Layout.message, wordAt?, List.drop_zero, takeWord?_append]
  simp only [Option.map_some, if_true]
  rw [Walk.start, List.append_nil]
  rfl

theorem decode_message {row : Row} {list : List Column}
    (h : ∀ column ∈ list, Layout.Encodable row column) :
    ∃ values, values.map some = list.map row.value? ∧
      decode list (Layout.message row list) = .ok (some values) := by
  have drained := Layout.drain_columns h wordSize wordSize []
  obtain ⟨values, shown, read⟩ := Value.ofFrames_payloads h wordSize 0
  refine ⟨values, shown, ?_⟩
  rw [decode, read_message]
  simp only
  rw [drained, readColumns, read]
  rfl

end Message

theorem Sink.offer_of_taking (n : Nat) (offered : List Bytes) (message : Bytes) :
    ∃ m, Sink.offer ⟨List.replicate n (.ok .taken), offered⟩ message =
      (.ok .taken, ⟨List.replicate m (.ok .taken), offered ++ [message]⟩) := by
  cases n with
  | zero => exact ⟨0, rfl⟩
  | succ n => exact ⟨n, rfl⟩

namespace Cursor

variable {rows rest : List Row} {selection : Selection} {row : Row}

theorem fetch_of_row (h : selection.firstRow? rows = some (row, rest)) (counters : Counters) :
    Source.fetch (⟨some rows, selection⟩ : Cursor) counters =
      { result := .ok (some row), source := ⟨some rest, selection⟩
        world := { counters with fetches := counters.fetches + 1 } } := by
  change Cursor.fetch _ _ = _
  rw [fetch]
  simp only
  rw [h]

theorem fetch_of_end (h : selection.firstRow? rows = none) (counters : Counters) :
    Source.fetch (⟨some rows, selection⟩ : Cursor) counters =
      { result := .ok none, source := ⟨some [], selection⟩
        world := { counters with fetches := counters.fetches + 1 } } := by
  change Cursor.fetch _ _ = _
  rw [fetch]
  simp only
  rw [h]

end Cursor

namespace Scan

def remaining (rows : List Row) (selection : Selection) (heading : Heading) (room count : Nat) :
    Scan Cursor :=
  { source := some ⟨some rows, selection⟩, heading, room, phase := .running, rows := count }

variable {rows rest : List Row} {selection : Selection} {heading : Heading} {room : Nat}
  {row : Row}

theorem writeNext_remaining_of_row (first : selection.firstRow? rows = some (row, rest))
    (writable : Layout.Writable 0 row heading.columns)
    (fits : (Layout.row 0 row heading.columns).length ≤ room) (count : Nat) (counters : Counters) :
    (remaining rows selection heading room count).writeNext { limit := room } counters =
      { result := .ok true, scan := remaining rest selection heading room (count + 1)
        buf := { bytes := Layout.row 0 row heading.columns, limit := room }
        world := { counters with fetches := counters.fetches + 1 } } := by
  have fetched := Cursor.fetch_of_row first counters
  have laid : (Write.putRow row heading.columns).on { limit := room } = _ :=
    (Write.lays_putRow row heading.columns { limit := room }).laid writable fits
  have asked :
      (remaining rows selection heading room count).writeNext { limit := room } counters = _ :=
    writeNext_of_row rfl rfl rfl (congrArg Fetched.result fetched)
  rw [asked, fetched]
  exact encode_of_ok laid

theorem writeNext_remaining_of_end (last : selection.firstRow? rows = none) (count : Nat)
    (counters : Counters) :
    (remaining rows selection heading room count).writeNext { limit := room } counters =
      { result := .ok false
        scan := { remaining [] selection heading room count with phase := .exhausted }
        buf := { limit := room }, world := { counters with fetches := counters.fetches + 1 } } := by
  have fetched := Cursor.fetch_of_end last counters
  have asked :
      (remaining rows selection heading room count).writeNext { limit := room } counters = _ :=
    writeNext_of_end rfl rfl rfl (congrArg Fetched.result fetched)
  rw [asked, fetched]
  rfl

/-- A sink that takes every message is offered one for each row that is to show, and the
mark that the stream has ended. -/
theorem deliverRows_remaining (results : List Row) (same : selection.results rows = results)
    (fits : ∀ row ∈ results, Layout.Writable 0 row heading.columns ∧
      (Layout.row 0 row heading.columns).length ≤ room)
    (count n : Nat) (offered : List Bytes) (counters : Counters) (tally : Tally) :
    let sent := (remaining rows selection heading room count).deliverRows
      ⟨List.replicate n (.ok .taken), offered⟩ counters tally
    sent.sink.offered = offered ++
        (results.map (Layout.message · heading.columns) ++ [Message.endMark]) ∧
      ∃ total, sent.result = .ok total ∧ total.rows = tally.rows + results.length ∧
        total.detached = tally.detached := by
  induction results generalizing rows count n offered counters tally with
  | nil =>
      have last : selection.firstRow? rows = none := by
        rcases found : selection.firstRow? rows with _ | ⟨row, rest⟩
        · rfl
        · rw [Selection.results_of_firstRow?_eq_some found] at same
          cases same
      obtain ⟨m, taking⟩ := Sink.offer_of_taking n offered Message.endMark
      intro sent
      have shape : sent = _ :=
        deliverRows_of_end (writeNext_remaining_of_end last count counters) rfl
      rw [taking] at shape
      rw [shape]
      exact ⟨rfl, tally, rfl, rfl, rfl⟩
  | cons row results ih =>
      rcases found : selection.firstRow? rows with _ | ⟨first, rest⟩
      · rw [Selection.results_of_firstRow?_eq_none found] at same
        cases same
      · rw [Selection.results_of_firstRow?_eq_some found] at same
        obtain ⟨rfl, later⟩ := List.cons.inj same
        obtain ⟨writable, small⟩ := fits first List.mem_cons_self
        obtain ⟨m, taking⟩ := Sink.offer_of_taking n offered (Layout.message first heading.columns)
        intro sent
        have shape : sent = _ := deliverRows_of_row
          (writeNext_remaining_of_row found writable small count counters) rfl
        simp only at shape
        rw [Message.wrap_row] at shape
        simp only at shape
        rw [taking] at shape
        simp only at shape
        have more := ih later (fun row member => fits row (List.mem_cons_of_mem _ member))
          (count + 1) m (offered ++ [Layout.message first heading.columns])
          { counters with fetches := counters.fetches + 1 }
          (tally.add (Layout.message first heading.columns))
        rw [← shape] at more
        obtain ⟨sentRest, total, result, counted, attached⟩ := more
        refine ⟨?_, total, result, ?_, attached⟩
        · rw [sentRest, List.append_assoc]
          rfl
        · rw [counted, List.length_cons, Tally.add]
          simp only
          omega

end Scan

theorem Row.forall₂_of_shown {row : Row} {list : List Column} {values : List Value}
    {shows : Column → Value → Prop} (shown : values.map some = list.map row.value?)
    (each : ∀ column ∈ list, ∀ value, row.value? column = some value → shows column value) :
    List.Forall₂ shows list values := by
  induction list generalizing values with
  | nil =>
      cases values with
      | nil => exact .nil
      | cons value values => cases shown
  | cons column list ih =>
      cases values with
      | nil => cases shown
      | cons value values =>
          obtain ⟨first, others⟩ := List.cons.inj shown
          exact .cons (each column List.mem_cons_self value first.symm)
            (ih others fun column member => each column (List.mem_cons_of_mem _ member))

theorem Table.Holds.decoded {cells : List Cell} {table : Table} (holds : Holds cells table)
    (heading : Heading) (entries : Table)
    (stored : ∀ entry ∈ entries, entry ∈ table.taken (.ofHeading heading))
    (encodable : ∀ entry ∈ entries, ∀ column ∈ heading.columns, Layout.Encodable
      ((Selection.ofHeading heading).restrict (entry.2.map Prod.snd)) column) :
    ∃ rows : List (List Value),
      List.Forall₂ (fun key values => List.Forall₂ (fun column value =>
        column.Shows cells key value) heading.columns values) (entries.map Prod.fst) rows ∧
      entries.map (fun entry => Message.decode heading.columns (Layout.message
        ((Selection.ofHeading heading).restrict (entry.2.map Prod.snd)) heading.columns)) =
          rows.map (.ok ∘ some) := by
  induction entries with
  | nil => exact ⟨[], .nil, rfl⟩
  | cons entry entries ih =>
      obtain ⟨rows, shows, decoded⟩ := ih
        (fun entry member => stored entry (List.mem_cons_of_mem _ member))
        (fun entry member => encodable entry (List.mem_cons_of_mem _ member))
      obtain ⟨values, shown, read⟩ := Message.decode_message
        (encodable entry List.mem_cons_self)
      have first := Row.forall₂_of_shown shown fun column listed value same =>
        holds.shows (stored entry List.mem_cons_self) listed same
      refine ⟨values :: rows, .cons first shows, ?_⟩
      rw [List.map_cons, List.map_cons, read, decoded]
      rfl

/-- The rows of a table that a scan of the columns is to show. -/
def Store.results (store : Store) (name : Bytes) (heading : Heading) : List Row :=
  ((store.table? name).map fun table => (Selection.ofHeading heading).results table.rows).getD []

/-- A scan of a table that was added shows each row of which something is taken, once and in
key order, with what was written last under each column, and then the end of the stream. -/
theorem delivery_shows_table (changes : List Change) (name : Bytes) (heading : Heading)
    (room n : Nat) (counters : Counters) (added : .addTable name ∈ changes)
    (fits : ∀ row ∈ (Store.after changes).results name heading,
      Layout.Writable 0 row heading.columns ∧
        (Layout.row 0 row heading.columns).length ≤ room) :
    ∃ scan opened,
      (Store.after changes).startScan name heading room counters = (.ok scan, opened) ∧
      let sent := scan.deliver ⟨List.replicate n (.ok .taken), []⟩ opened
      ∃ (keys : List Bytes) (rows : List (List Value)) (total : Tally),
        keys.Pairwise (· < ·) ∧
        (∀ key, key ∈ keys ↔ ∃ cell ∈ Change.written name changes, cell.row = key ∧
          (Selection.ofHeading heading).takes cell.family cell.qualifier = true) ∧
        List.Forall₂ (fun key values => List.Forall₂ (fun column value =>
          column.Shows (Change.written name changes) key value) heading.columns values) keys rows ∧
        sent.sink.offered.map (Message.decode heading.columns) =
          rows.map (.ok ∘ some) ++ [.ok none] ∧
        sent.result = .ok total ∧ total.rows = keys.length ∧ total.detached = false := by
  let cells := Change.written name changes
  let table := cells.foldl Table.put []
  have found : (Store.after changes).table? name = some table := by
    rw [Store.table?_after, if_pos added]
  have holds : Table.Holds cells table := Table.holds_foldl_put cells
  have results := Table.results_rows table (.ofHeading heading)
  rw [Store.results, found, Option.map_some, Option.getD_some] at fits
  have opened : (Store.after changes).startScan name heading room counters =
      (.ok (Scan.remaining table.rows (.ofHeading heading) heading room 0),
        { counters with opens := counters.opens + 1 }) := by
    rw [Store.startScan, Store.openCursor, found]
    rfl
  refine ⟨_, _, opened, ?_⟩
  obtain ⟨offered, total, result, counted, attached⟩ := Scan.deliverRows_remaining _ rfl fits 0 n []
    { counters with opens := counters.opens + 1 } {}
  rw [results] at offered counted fits
  obtain ⟨rows, shows, decoded⟩ := holds.decoded heading (table.taken (.ofHeading heading))
    (fun _ member => member)
    (fun entry member => (fits _ (List.mem_map_of_mem member)).1.1)
  refine ⟨_, rows, total, ?_, holds.mem_keys _, shows, ?_, result, ?_, attached⟩
  · rw [List.pairwise_map]
    exact holds.sound.increasing.filter _
  · rw [List.nil_append] at offered
    rw [Scan.deliver]
    simp only
    rw [offered, List.map_append, List.map_map, List.map_map]
    exact congrArg (· ++ [.ok none]) decoded
  · rw [counted, List.length_map, List.length_map]
    exact Nat.zero_add _

/-- A value that is written over, a row of another family, and a column that is always NULL. Two
rows arrive, each under its key with the cells of the one family, and then the end. -/
theorem delivery_shows_table_overwritten :
    let changes : List Change := [.put [116] ⟨[1], [102], [9], [9]⟩, .addTable [116],
      .put [116] ⟨[2], [102], [5], [1]⟩, .put [116] ⟨[1], [102], [4], [3]⟩,
      .put [116] ⟨[2], [102], [5], [2]⟩, .put [116] ⟨[3], [103], [5], [2]⟩]
    let heading : Heading := ⟨[.rowKey, .family [102], .leaf [102] [5]], by decide⟩
    let rows : List (List Value) := [[.scalar [1], .object ⟨[([4], [3])]⟩, .null],
      [.scalar [2], .object ⟨[([5], [2])]⟩, .null]]
    ∃ scan opened,
      (Store.after changes).startScan [116] heading 80 {} = (.ok scan, opened) ∧
      let sent := scan.deliver ⟨List.replicate 1 (.ok .taken), []⟩ opened
      List.Forall₂ (fun key values => List.Forall₂ (fun column value =>
        column.Shows (Change.written [116] changes) key value) heading.columns values)
        [[1], [2]] rows ∧
      sent.sink.offered.map (Message.decode heading.columns) =
        rows.map (.ok ∘ some) ++ [.ok none] ∧
      ∃ total, sent.result = .ok total ∧ total.rows = 2 ∧ total.detached = false := by
  intro changes heading rows
  obtain ⟨scan, opened, started, keys, shown, total, -, -, shows, offered, result, counted,
      attached⟩ :=
    delivery_shows_table changes [116] heading 80 1 {} (by decide) (by decide +kernel)
  have arrived : (let start := (Store.after changes).startScan [116] heading 80 {}
      start.1.toOption.map fun scan =>
        (scan.deliver ⟨List.replicate 1 (.ok .taken), []⟩ start.2).sink.offered.map
          (Message.decode heading.columns)) =
      some (rows.map (.ok ∘ some) ++ [.ok none]) := by decide +kernel
  simp only [started, Except.toOption, Option.map_some, Option.some.injEq] at arrived
  -- What arrives tells the rows, and the first value of each row tells its key.
  have same : shown = rows := by
    have front := List.append_cancel_right (offered.symm.trans arrived)
    exact List.map_injective_iff.mpr (fun _ _ equal => Option.some.inj (Except.ok.inj equal)) front
  subst same
  simp only [rows] at shows
  match keys, shows with
  | [_, _], .cons (.cons first others) (.cons (.cons second more) .nil) =>
    cases first
    cases second
    exact ⟨scan, opened, started, .cons (.cons rfl others) (.cons (.cons rfl more) .nil), arrived,
      total, result, counted, attached⟩

end TupleWire
