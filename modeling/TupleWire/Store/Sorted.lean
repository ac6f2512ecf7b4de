/-! Lists of entries in strictly increasing order of their keys. -/
namespace TupleWire.Sorted

variable {κ β : Type} [LT κ] [DecidableLT κ] [DecidableEq κ]

/-- Sets the value under a key to `f` of the value already there. -/
def alter (key : κ) (f : Option β → β) : List (κ × β) → List (κ × β)
  | [] => [(key, f none)]
  | (other, value) :: rest =>
      if key < other then (key, f none) :: (other, value) :: rest
      else if key = other then (key, f (some value)) :: rest
      else (other, value) :: alter key f rest

end TupleWire.Sorted
