import TupleWire.Proofs.Store.Sorted
import TupleWire.Store.Basic

/-! What a store holds after any changes: at every place of a table the cell that was
written there last, under keys and places in strictly increasing order. -/
namespace TupleWire

namespace Coordinate

instance : Std.Irrefl (α := Coordinate) (· < ·) where
  irrefl place less := by
    rcases less with family | ⟨_, qualifier⟩
    · exact Std.Irrefl.irrefl _ family
    · exact Std.Irrefl.irrefl _ qualifier

instance : Trans (α := Coordinate) (· < ·) (· < ·) (· < ·) where
  trans {a b c} first second := by
    rcases first with family | ⟨same, qualifier⟩
    · rcases second with next | ⟨equal, _⟩
      · exact .inl (Std.lt_trans family next)
      · exact .inl (equal ▸ family)
    · rcases second with next | ⟨equal, next⟩
      · exact .inl (same ▸ next)
      · exact .inr ⟨same.trans equal, Std.lt_trans qualifier next⟩

instance : Std.Trichotomous (α := Coordinate) (· < ·) where
  trichotomous a b notLess notMore := by
    obtain ⟨family, qualifier⟩ := a
    obtain ⟨other, second⟩ := b
    have families : family = other := Std.Trichotomous.trichotomous (r := (· < ·)) _ _
      (fun less => notLess (.inl less)) (fun more => notMore (.inl more))
    subst families
    have qualifiers : qualifier = second := Std.Trichotomous.trichotomous (r := (· < ·)) _ _
      (fun less => notLess (.inr ⟨rfl, less⟩)) (fun more => notMore (.inr ⟨rfl, more⟩))
    rw [qualifiers]

end Coordinate

/-- The cell written last at a place of a row. -/
def Cell.last? (cells : List Cell) (key : Bytes) (place : Coordinate) : Option Cell :=
  (cells.filter fun cell => cell.row = key ∧ cell.coordinate = place).getLast?

theorem Cell.last?_cons (cell : Cell) (cells : List Cell) (key : Bytes) (place : Coordinate) :
    Cell.last? (cell :: cells) key place =
      (Cell.last? cells key place).or
        (if cell.row = key ∧ cell.coordinate = place then some cell else none) := by
  rw [last?, List.filter_cons]
  split
  · next here =>
      rw [if_pos (of_decide_eq_true here), List.getLast?_cons, last?]
      cases (cells.filter fun cell => cell.row = key ∧ cell.coordinate = place).getLast? with
      | none => rfl
      | some later => rfl
  · next elsewhere =>
      rw [if_neg (fun here => elsewhere (decide_eq_true here)), Option.or_none, last?]

theorem Cell.of_last? {cells : List Cell} {key : Bytes} {place : Coordinate} {cell : Cell}
    (h : Cell.last? cells key place = some cell) :
    cell ∈ cells ∧ cell.row = key ∧ cell.coordinate = place := by
  obtain ⟨member, here⟩ := List.mem_filter.mp (List.mem_of_getLast? h)
  exact ⟨member, of_decide_eq_true here⟩

theorem Cell.exists_last? {cells : List Cell} {cell : Cell} (member : cell ∈ cells) :
    ∃ last, Cell.last? cells cell.row cell.coordinate = some last := by
  have inside : cell ∈ cells.filter fun other =>
      other.row = cell.row ∧ other.coordinate = cell.coordinate :=
    List.mem_filter.mpr ⟨member, by simp⟩
  exact ⟨_, List.getLast?_eq_some_getLast (List.ne_nil_of_mem inside)⟩

namespace Table

def cell? (table : Table) (key : Bytes) (place : Coordinate) : Option Cell :=
  (table.lookup key).bind fun row => row.lookup place

/-- The cells of a row in order, each at its own place. -/
structure Filed (key : Bytes) (row : List (Coordinate × Cell)) : Prop where
  increasing : Sorted.Increasing row
  placed : ∀ entry ∈ row, entry.2.row = key ∧ entry.2.coordinate = entry.1

structure Sound (table : Table) : Prop where
  increasing : Sorted.Increasing table
  filed : ∀ entry ∈ table, Filed entry.1 entry.2 ∧ entry.2 ≠ []

theorem sound_empty : Sound [] := ⟨.nil, nofun⟩

theorem filed_alter {cell : Cell} {row : List (Coordinate × Cell)} (filed : Filed cell.row row) :
    Filed cell.row (Sorted.alter cell.coordinate (fun _ => cell) row) := by
  have increasing := Sorted.increasing_alter filed.increasing cell.coordinate (fun _ => cell)
  refine ⟨increasing, ?_⟩
  rintro ⟨place, content⟩ member
  rw [Sorted.mem_iff_lookup increasing] at member
  by_cases same : place = cell.coordinate
  · subst same
    rw [Sorted.lookup_alter_self filed.increasing] at member
    cases member
    exact ⟨rfl, rfl⟩
  · rw [Sorted.lookup_alter_of_ne same, ← Sorted.mem_iff_lookup filed.increasing] at member
    exact filed.placed _ member

theorem filed_lookup {table : Table} (sound : table.Sound) (key : Bytes) :
    Filed key ((table.lookup key).getD []) := by
  cases found : table.lookup key with
  | none => exact ⟨.nil, nofun⟩
  | some row => exact (sound.filed _ ((Sorted.mem_iff_lookup sound.increasing).mpr found)).1

theorem sound_put {table : Table} (sound : table.Sound) (cell : Cell) : (table.put cell).Sound := by
  have increasing := Sorted.increasing_alter sound.increasing cell.row
    (fun row => Sorted.alter cell.coordinate (fun _ => cell) (row.getD []))
  refine ⟨increasing, ?_⟩
  rintro ⟨key, row⟩ member
  rw [put, Sorted.mem_iff_lookup increasing] at member
  by_cases same : key = cell.row
  · subst same
    rw [Sorted.lookup_alter_self sound.increasing] at member
    cases member
    exact ⟨filed_alter (filed_lookup sound cell.row), Sorted.alter_ne_nil _ _ _⟩
  · rw [Sorted.lookup_alter_of_ne same, ← Sorted.mem_iff_lookup sound.increasing] at member
    exact sound.filed _ member

theorem cell?_put {table : Table} (sound : table.Sound) (cell : Cell) (key : Bytes)
    (place : Coordinate) :
    (table.put cell).cell? key place =
      if cell.row = key ∧ cell.coordinate = place then some cell else table.cell? key place := by
  rw [put, cell?]
  by_cases row : cell.row = key
  · subst row
    have filed := filed_lookup sound cell.row
    rw [Sorted.lookup_alter_self sound.increasing, Option.bind_some]
    by_cases here : cell.coordinate = place
    · subst here
      rw [Sorted.lookup_alter_self filed.increasing, if_pos ⟨rfl, rfl⟩]
    · rw [Sorted.lookup_alter_of_ne (Ne.symm here), if_neg (fun both => here both.2), cell?]
      cases table.lookup cell.row with
      | none => rfl
      | some row => rfl
  · rw [Sorted.lookup_alter_of_ne (Ne.symm row), if_neg (fun both => row both.1), cell?]

/-- A table that was filled holds at each place what was put there last. -/
theorem sound_foldl_put (cells : List Cell) {table : Table} (sound : table.Sound) :
    (cells.foldl put table).Sound ∧ ∀ key place,
      (cells.foldl put table).cell? key place =
        (Cell.last? cells key place).or (table.cell? key place) := by
  induction cells generalizing table with
  | nil => exact ⟨sound, fun _ _ => rfl⟩
  | cons cell cells ih =>
      obtain ⟨filled, content⟩ := ih (sound_put sound cell)
      refine ⟨filled, fun key place => ?_⟩
      rw [List.foldl_cons, content, cell?_put sound, Cell.last?_cons, Option.or_assoc]
      split
      · rfl
      · rfl

end Table

/-- What can be done to a store. -/
inductive Change where
  | addTable (name : Bytes)
  | put (name : Bytes) (cell : Cell)
  deriving DecidableEq

namespace Change

def cell? (name : Bytes) : Change → Option Cell
  | .addTable _ => none
  | .put other cell => if other = name then some cell else none

/-- The cells that are written to a table, in order: the puts after the table was added. -/
def written (name : Bytes) (changes : List Change) : List Cell :=
  (changes.dropWhile (· ≠ .addTable name)).filterMap (Change.cell? name)

end Change

namespace Store

/-- Makes a change. A put to a table that does not exist fails and changes nothing. -/
def change (store : Store) : Change → Store
  | .addTable name => store.addTable name
  | .put name cell =>
      match store.put name cell with
      | .ok store => store
      | .error _ => store

/-- The store that the changes make, beginning without tables. -/
def after (changes : List Change) : Store := changes.foldl change {}

variable {store : Store} {name : Bytes}

theorem put_of_none (missing : store.table? name = none) (cell : Cell) :
    store.put name cell = .error { fault := .noSuchTable } := by
  rw [put, missing]

theorem put_of_some {table : Table} (found : store.table? name = some table) (cell : Cell) :
    store.put name cell =
      .ok { store with tables := Sorted.alter name (fun _ => table.put cell) store.tables } := by
  rw [put, found]

theorem increasing_change (sorted : Sorted.Increasing store.tables) (change : Change) :
    Sorted.Increasing (store.change change).tables := by
  cases change with
  | addTable name => exact Sorted.increasing_alter sorted name _
  | put name cell =>
      rw [Store.change]
      cases found : store.table? name with
      | none =>
          rw [put_of_none found]
          exact sorted
      | some table =>
          rw [put_of_some found]
          exact Sorted.increasing_alter sorted name _

theorem table?_change (sorted : Sorted.Increasing store.tables) (change : Change) (name : Bytes) :
    (store.change change).table? name =
      match store.table? name with
      | none => if change = .addTable name then some [] else none
      | some table => some ((change.cell? name).toList.foldl Table.put table) := by
  cases change with
  | addTable other =>
      rw [Store.change, addTable, table?]
      by_cases same : name = other
      · subst same
        rw [Sorted.lookup_alter_self sorted, ← table?]
        cases store.table? name with
        | none => exact (if_pos rfl).symm
        | some table => rfl
      · have different : Change.addTable other ≠ .addTable name := by
          rintro ⟨⟩
          exact same rfl
        rw [Sorted.lookup_alter_of_ne same, ← table?, if_neg different]
        cases store.table? name with
        | none => rfl
        | some table => rfl
  | put other cell =>
      rw [Store.change, if_neg nofun, Change.cell?]
      by_cases same : other = name
      · subst same
        cases found : store.table? other with
        | none =>
            rw [put_of_none found]
            exact found
        | some table =>
            rw [put_of_some found, if_pos rfl]
            exact Sorted.lookup_alter_self sorted other _
      · rw [if_neg same]
        have kept : (store.change (.put other cell)).table? name = store.table? name := by
          rw [Store.change]
          cases found : store.table? other with
          | none => rw [put_of_none found]
          | some table =>
              rw [put_of_some found]
              exact Sorted.lookup_alter_of_ne (Ne.symm same) _ _
        rw [Store.change] at kept
        rw [kept]
        cases store.table? name with
        | none => rfl
        | some table => rfl

theorem table?_foldl_of_some (changes : List Change) {table : Table}
    (sorted : Sorted.Increasing store.tables) (found : store.table? name = some table) :
    (changes.foldl change store).table? name =
      some ((changes.filterMap (Change.cell? name)).foldl Table.put table) := by
  induction changes generalizing store table with
  | nil => exact found
  | cons first changes ih =>
      have next := table?_change sorted first name
      rw [found] at next
      rw [List.foldl_cons, ih (increasing_change sorted first) next, List.filterMap_cons]
      cases first.cell? name with
      | none => rfl
      | some cell => rfl

theorem table?_foldl_of_none (changes : List Change) (sorted : Sorted.Increasing store.tables)
    (missing : store.table? name = none) :
    (changes.foldl change store).table? name =
      if .addTable name ∈ changes then some ((Change.written name changes).foldl Table.put [])
      else none := by
  induction changes generalizing store with
  | nil => exact missing
  | cons first changes ih =>
      have next := table?_change sorted first name
      rw [missing] at next
      rw [List.foldl_cons]
      by_cases same : first = .addTable name
      · subst same
        rw [if_pos rfl] at next
        rw [table?_foldl_of_some changes (increasing_change sorted _) next,
          if_pos List.mem_cons_self, Change.written, List.dropWhile_cons_of_neg (by simp)]
        rfl
      · rw [if_neg same] at next
        have later : .addTable name ∈ first :: changes ↔ .addTable name ∈ changes := by
          rw [List.mem_cons, or_iff_right (Ne.symm same)]
        have skipped : Change.written name (first :: changes) = Change.written name changes := by
          rw [Change.written, List.dropWhile_cons_of_pos (by simpa using same), Change.written]
        rw [ih (increasing_change sorted first) next, skipped]
        simp only [later]

/-- A table exists once it was added, and then holds what was written to it. -/
theorem table?_after (changes : List Change) (name : Bytes) :
    (after changes).table? name =
      if .addTable name ∈ changes then some ((Change.written name changes).foldl Table.put [])
      else none :=
  table?_foldl_of_none changes .nil rfl

end Store

end TupleWire
