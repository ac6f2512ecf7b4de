import TupleWire.Scan.Basic
import TupleWire.Scan.Selection
import TupleWire.Store.Basic

/-! Cursors over the rows of a table, and scans that fetch from them. -/
namespace TupleWire

/-- What a store has counted: cursors opened, fetches on open cursors, cursors closed. -/
structure Counters where
  opens : Nat := 0
  fetches : Nat := 0
  closes : Nat := 0
  deriving DecidableEq, Repr

/-- The rows not yet looked at, until the cursor is closed, and what is taken of them. -/
structure Cursor where
  rows : Option (List Row)
  selection : Selection

/-- The first row of which something is taken, cut down to that, and the rows after it. -/
def Selection.firstRow? (selection : Selection) : List Row → Option (Row × List Row)
  | [] => none
  | row :: rows =>
      if (selection.restrict row).isEmpty then selection.firstRow? rows
      else some (selection.restrict row, rows)

theorem Selection.length_of_firstRow?_eq_some {selection : Selection} {rows rest : List Row}
    {row : Row} (h : selection.firstRow? rows = some (row, rest)) : rest.length < rows.length := by
  induction rows with
  | nil => cases h
  | cons first rows ih =>
      unfold firstRow? at h
      split at h
      · exact Nat.lt_succ_of_lt (ih h)
      · cases h
        exact Nat.lt_succ_self _

namespace Cursor

/-- A closed cursor refuses, and the call is not counted. -/
def fetch (cursor : Cursor) (counters : Counters) : Fetched Cursor Counters :=
  match cursor.rows with
  | none => { result := .error { fault := .cursorClosed }, source := cursor, world := counters }
  | some rows =>
      let counted := { counters with fetches := counters.fetches + 1 }
      match cursor.selection.firstRow? rows with
      | none =>
          { result := .ok none, source := { cursor with rows := some [] }, world := counted }
      | some (row, rest) =>
          { result := .ok (some row), source := { cursor with rows := some rest }
            world := counted }

/-- Closing counts once. -/
def release (cursor : Cursor) (counters : Counters) : Released Cursor Counters :=
  { result := .ok ()
    source := { cursor with rows := none }
    world := if cursor.rows.isSome then { counters with closes := counters.closes + 1 }
      else counters }

instance : Source Cursor Counters where
  fetch := fetch
  release := release
  supply cursor := (cursor.rows.getD []).length
  supply_lt_of_fetch cursor counters row h := by
    unfold fetch at h ⊢
    split at h
    · cases h
    · next rows present =>
        split at h
        · cases h
        · next first rest found =>
            simpa [present] using Selection.length_of_firstRow?_eq_some found

end Cursor

namespace Store

/-- Opens a cursor over a table; only success is counted. -/
def openCursor (store : Store) (name : Bytes) (selection : Selection) (counters : Counters) :
    Except Error Cursor × Counters :=
  match store.table? name with
  | none => (.error { fault := .tableNotFound name }, counters)
  | some table =>
      (.ok { rows := some table.rows, selection }, { counters with opens := counters.opens + 1 })

/-- Starts a scan over a table; its cursor takes what the columns need. -/
def startScan (store : Store) (name : Bytes) (heading : Heading) (room : Nat)
    (counters : Counters) : Except Error (Scan Cursor) × Counters :=
  let (cursor, counters) := store.openCursor name (.ofHeading heading) counters
  (cursor.map (.start · heading room), counters)

end Store

end TupleWire
