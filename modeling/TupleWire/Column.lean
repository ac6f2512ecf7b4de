import TupleWire.Fault

/-! Descriptions of the output columns of a scan. -/
namespace TupleWire

/-- What one output column carries: the row key as a scalar, the cells of a family as
an object keyed by qualifier, or, for a single qualifier, always NULL. -/
inductive Column where
  | rowKey
  | family (name : Bytes)
  | leaf (family qualifier : Bytes)
  deriving DecidableEq, Repr

namespace Column

inductive Kind where
  | rowKey
  | family
  | leaf
  deriving DecidableEq, Repr

def kind : Column → Kind
  | .rowKey => .rowKey
  | .family _ => .family
  | .leaf _ _ => .leaf

def familyName? : Column → Option Bytes
  | .rowKey => none
  | .family name => some name
  | .leaf name _ => some name

def checkFamily (name : Bytes) : Except Error Unit :=
  if name.isEmpty then .error { fault := .familyEmpty }
  else if name.length > Limit.family then .error { fault := .familyTooLong }
  else .ok ()

def ofFamily (name : Bytes) : Except Error Column := do
  checkFamily name
  return .family name

def ofLeaf (family qualifier : Bytes) : Except Error Column := do
  checkFamily family
  if qualifier.length > Limit.qualifier then throw { fault := .qualifierTooLong }
  return .leaf family qualifier

end Column

/-- The output columns of one scan, in order. -/
structure Heading where
  columns : List Column
  length_le : columns.length ≤ Limit.columns

namespace Heading

def ofList (columns : List Column) : Except Error Heading :=
  if h : columns.length ≤ Limit.columns then .ok ⟨columns, h⟩
  else .error { fault := .tooManyColumns }

def empty : Heading := ⟨[], Nat.zero_le _⟩

def size (heading : Heading) : Nat := heading.columns.length

end Heading

end TupleWire
