/-! Values under names. -/
namespace TupleWire

/-- At most one value under each name that was set. -/
abbrev Registry (α : Type) := List (String × α)

namespace Registry

variable {α : Type}

def get? (registry : Registry α) (name : String) : Option α := registry.lookup name

def erase (registry : Registry α) (name : String) : Registry α :=
  registry.filter fun entry => entry.1 ≠ name

def set (registry : Registry α) (name : String) (value : α) : Registry α :=
  (name, value) :: registry.erase name

theorem get?_erase (registry : Registry α) (name other : String) :
    (registry.erase name).get? other = if other = name then none else registry.get? other := by
  induction registry with
  | nil => simp [erase, get?]
  | cons entry rest ih =>
      unfold erase get? at *
      simp only [List.filter_cons]
      grind

theorem get?_of_erase {registry : Registry α} {name other : String} {value : α}
    (found : (registry.erase name).get? other = some value) : registry.get? other = some value := by
  rw [get?_erase] at found
  split at found
  · cases found
  · exact found

theorem get?_set (registry : Registry α) (name other : String) (value : α) :
    (registry.set name value).get? other =
      if other = name then some value else registry.get? other := by
  have erased := get?_erase registry name other
  unfold set get? at *
  simp only [List.lookup_cons]
  grind

end Registry

end TupleWire
