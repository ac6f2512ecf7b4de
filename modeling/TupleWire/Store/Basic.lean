import TupleWire.Cell
import TupleWire.Fault
import TupleWire.Store.Sorted

/-! A column-family store in memory: tables by name, rows by key, cells by family and
qualifier, each in increasing byte order. -/
namespace TupleWire

/-- The place of a cell within its row. -/
structure Coordinate where
  family : Bytes
  qualifier : Bytes
  deriving DecidableEq, Repr

/-- Coordinates are ordered by family, then by qualifier. -/
instance : LT Coordinate where
  lt a b := a.family < b.family ∨ a.family = b.family ∧ a.qualifier < b.qualifier

instance : DecidableLT Coordinate := fun a b =>
  inferInstanceAs
    (Decidable (a.family < b.family ∨ a.family = b.family ∧ a.qualifier < b.qualifier))

def Cell.coordinate (cell : Cell) : Coordinate := ⟨cell.family, cell.qualifier⟩

/-- The rows of a table by key; each holds its cells by coordinate. -/
abbrev Table := List (Bytes × List (Coordinate × Cell))

namespace Table

/-- Stores a cell in place of any cell of the same row, family and qualifier. -/
def put (table : Table) (cell : Cell) : Table :=
  Sorted.alter cell.row (fun row => Sorted.alter cell.coordinate (fun _ => cell) (row.getD []))
    table

def rows (table : Table) : List Row := table.map fun entry => entry.2.map Prod.snd

end Table

structure Store where
  tables : List (Bytes × Table) := []

namespace Store

def table? (store : Store) (name : Bytes) : Option Table := store.tables.lookup name

/-- Adds an empty table; a table that exists stays as it is. -/
def addTable (store : Store) (name : Bytes) : Store :=
  { store with tables := Sorted.alter name (·.getD []) store.tables }

def put (store : Store) (name : Bytes) (cell : Cell) : Except Error Store :=
  match store.table? name with
  | none => .error { fault := .noSuchTable }
  | some table =>
      let tables := Sorted.alter name (fun _ => table.put cell) store.tables
      .ok { store with tables }

end Store

end TupleWire
