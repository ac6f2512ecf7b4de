import TupleWire.Bytes

/-! Cells of a column-family store, and the rows that a cursor hands over. -/
namespace TupleWire

/-- One value of a row, under a family and a qualifier. -/
structure Cell where
  row : Bytes
  family : Bytes
  qualifier : Bytes
  value : Bytes
  deriving DecidableEq, Repr

/-- The cells that one fetch returns. They share a key; a row without cells has none. -/
abbrev Row := List Cell

namespace Row

def key? (row : Row) : Option Bytes :=
  row.head?.map Cell.row

def family (row : Row) (name : Bytes) : List Cell :=
  row.filter fun cell => cell.family = name

/-- The entries that a family column carries: qualifiers with their values. -/
def entries (row : Row) (name : Bytes) : List (Bytes × Bytes) :=
  (row.family name).map fun cell => (cell.qualifier, cell.value)

end Row

end TupleWire
