import TupleWire.Cell
import TupleWire.Column

/-! What a store has to return for the columns of a scan. -/
namespace TupleWire

/-- Whole families, and single qualifiers of other families. An empty selection takes
every cell of a row. -/
structure Selection where
  families : List Bytes := []
  leaves : List (Bytes × Bytes) := []
  deriving DecidableEq, Repr

namespace Column

def wholeFamily? : Column → Option Bytes
  | .family name => some name
  | _ => none

def leaf? : Column → Option (Bytes × Bytes)
  | .leaf name qualifier => some (name, qualifier)
  | _ => none

end Column

namespace Selection

/-- The least selection that serves the columns: each family once, and each leaf once
whose family is not taken as a whole, in order of first appearance. -/
def ofHeading (heading : Heading) : Selection :=
  let families := (heading.columns.filterMap Column.wholeFamily?).eraseDups
  let leaves := heading.columns.filterMap Column.leaf?
  { families, leaves := (leaves.filter fun leaf => leaf.1 ∉ families).eraseDups }

def takesAll (selection : Selection) : Bool :=
  selection.families.isEmpty && selection.leaves.isEmpty

def takes (selection : Selection) (family qualifier : Bytes) : Bool :=
  selection.takesAll || family ∈ selection.families ||
    (family, qualifier) ∈ selection.leaves

def restrict (selection : Selection) (row : Row) : Row :=
  row.filter fun cell => selection.takes cell.family cell.qualifier

end Selection

end TupleWire
