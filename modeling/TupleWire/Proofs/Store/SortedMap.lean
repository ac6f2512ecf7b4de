import TupleWire.Proofs.Scan.Course
import TupleWire.Proofs.Store.Searching
import TupleWire.Proofs.Store.Streaming

/-! A table as a map: under each key, and there at each place, the cell that was put last, in the
order of the keys and of the places. Puts at different places can be made in either order. -/
namespace TupleWire

namespace Selection

theorem restrict_default (row : Row) : ({} : Selection).restrict row = row :=
  List.filter_eq_self.mpr fun _ _ => rfl

end Selection

theorem Cursor.course_eq (rows : List Row) (selection : Selection) (counters : Counters) :
    Source.course (⟨some rows, selection⟩ : Cursor) counters =
      { items := selection.results rows } := by
  induction size : rows.length using Nat.strongRecOn generalizing rows counters with
  | _ size ih =>
    subst size
    cases found : selection.firstRow? rows with
    | none =>
        have fetched := fetch_of_end found counters
        rw [Source.course_of_end (congrArg Fetched.result fetched),
          Selection.results_of_firstRow?_eq_none found]
    | some split =>
        obtain ⟨row, rest⟩ := split
        have fetched := fetch_of_row found counters
        rw [Source.course_of_row (congrArg Fetched.result fetched), fetched,
          ih _ (Selection.length_of_firstRow?_eq_some found) rest _ rfl,
          Selection.results_of_firstRow?_eq_some found]
        rfl

/-- The cells are all of the row of a table under that key. -/
def Row.OfKey (key : Bytes) (row : Row) : Prop :=
  ∀ cell ∈ row, cell.row = key

theorem Row.OfKey.key? {key : Bytes} {row : Row} (keyed : row.OfKey key) (full : row ≠ []) :
    row.key? = some key := by
  cases row with
  | nil => exact absurd rfl full
  | cons cell cells => exact congrArg some (keyed cell List.mem_cons_self)

/-- The rows are keyed and in order as the puts of these cells leave them: one for each key, and in
it one cell for each place, which is the last that was put there. -/
structure LastWrites (cells : List Cell) (entries : List (Bytes × Row)) : Prop where
  increasing : entries.Pairwise fun a b => a.1 < b.1
  keys : ∀ key, key ∈ entries.map Prod.fst ↔ ∃ cell ∈ cells, cell.row = key
  full : ∀ entry ∈ entries, entry.2 ≠ []
  keyed : ∀ entry ∈ entries, Row.OfKey entry.1 entry.2
  ordered : ∀ entry ∈ entries, entry.2.Pairwise fun a b => a.coordinate < b.coordinate
  last : ∀ entry ∈ entries, ∀ cell,
    cell ∈ entry.2 ↔ Cell.last? cells entry.1 cell.coordinate = some cell

namespace Table

section Sound

variable {table : Table} (sound : table.Sound) {entry : Bytes × List (Coordinate × Cell)}
  (member : entry ∈ table)
include sound member

theorem Sound.ofKey : Row.OfKey entry.1 (entry.2.map Prod.snd) := by
  intro cell inside
  obtain ⟨placed, here, rfl⟩ := List.mem_map.mp inside
  exact ((sound.filed entry member).1.placed placed here).1

theorem Sound.full : entry.2.map Prod.snd ≠ [] :=
  fun none => (sound.filed entry member).2 (List.map_eq_nil_iff.mp none)

end Sound

def listing (table : Table) : List (Bytes × Row) :=
  table.map fun entry => (entry.1, entry.2.map Prod.snd)

theorem listing_rows (table : Table) : table.listing.map Prod.snd = table.rows := by
  rw [listing, List.map_map]
  rfl

theorem mem_listing {table : Table} {entry : Bytes × Row} :
    entry ∈ table.listing ↔ ∃ row, (entry.1, row) ∈ table ∧ row.map Prod.snd = entry.2 := by
  rw [listing, List.mem_map]
  constructor
  · rintro ⟨⟨key, row⟩, member, rfl⟩
    exact ⟨row, member, rfl⟩
  · rintro ⟨row, member, same⟩
    exact ⟨_, member, Prod.ext rfl same⟩

theorem ordered_cells {key : Bytes} {row : List (Coordinate × Cell)} (filed : Filed key row) :
    (row.map Prod.snd).Pairwise fun a b => a.coordinate < b.coordinate := by
  rw [List.pairwise_map]
  refine filed.increasing.imp_of_mem fun first second less => ?_
  rw [(filed.placed _ first).2, (filed.placed _ second).2]
  exact less

theorem taken_default {table : Table} (sound : table.Sound) : table.taken {} = table := by
  refine List.filter_eq_self.mpr fun entry member => ?_
  rw [Selection.restrict_default]
  exact decide_eq_true (sound.full member)

theorem results_default {table : Table} (sound : table.Sound) :
    ({} : Selection).results table.rows = table.rows := by
  rw [results_rows, taken_default sound]
  simp only [Selection.restrict_default, rows]

theorem Holds.lastWrites {cells : List Cell} {table : Table} (holds : Holds cells table) :
    LastWrites cells table.listing where
  increasing := List.pairwise_map.mpr holds.sound.increasing
  keys key := by
    have all := holds.mem_keys {} key
    rw [taken_default holds.sound] at all
    rw [listing, List.map_map]
    refine all.trans (exists_congr fun cell => and_congr_right fun _ => ?_)
    exact and_iff_left rfl
  full entry member := by
    obtain ⟨row, stored, same⟩ := mem_listing.mp member
    rw [← same]
    exact holds.sound.full stored
  keyed entry member := by
    obtain ⟨row, stored, same⟩ := mem_listing.mp member
    rw [← same]
    exact holds.sound.ofKey stored
  ordered entry member := by
    obtain ⟨row, stored, same⟩ := mem_listing.mp member
    rw [← same]
    exact ordered_cells (holds.sound.filed _ stored).1
  last entry member cell := by
    obtain ⟨row, stored, same⟩ := mem_listing.mp member
    rw [← same, mem_cells (holds.sound.filed _ stored).1, holds.lookup stored]

/-- Cells of different rows or at different places of one row can be put in either order. -/
theorem put_comm {table : Table} (sound : table.Sound) {first second : Cell}
    (apart : first.row = second.row → first.coordinate ≠ second.coordinate) :
    (table.put first).put second = (table.put second).put first := by
  -- Within one row the places are apart, and the row is altered twice in either order.
  by_cases row : first.row = second.row
  · have filed := filed_lookup sound first.row
    have swapped :=
      Sorted.alter_comm filed.increasing (apart row) (fun _ => second) (fun _ => first)
    rw [put, put, put, put, ← row, Sorted.alter_alter sound.increasing,
      Sorted.alter_alter sound.increasing]
    exact Sorted.alter_congr sound.increasing swapped
  · exact Sorted.alter_comm sound.increasing row _ _

theorem put_eq_file {table : Table} (sound : table.Sound) (cell : Cell) :
    table.put cell = Sorted.alter cell.row
      (fun row => Sorted.file cell.coordinate cell (row.getD [])) table :=
  (Sorted.alter_congr sound.increasing
    (Sorted.file_eq_alter (filed_lookup sound cell.row).increasing _ _)).symm

end Table

namespace Change

def accepted? (name : Bytes) (store : Store) : Change → Option Cell
  | .addTable _ => none
  | .put other cell => if other = name ∧ (store.put other cell).isOk then some cell else none

end Change

namespace Store

variable {store : Store} {name : Bytes}

/-- The cells that the changes put into a table with success, in order. -/
def accepted (name : Bytes) : Store → List Change → List Cell
  | _, [] => []
  | store, first :: rest =>
      (first.accepted? name store).toList ++ accepted name (store.change first) rest

theorem accepted?_of_some {table : Table} (found : store.table? name = some table)
    (change : Change) : change.accepted? name store = change.cell? name := by
  cases change with
  | addTable other => rfl
  | put other cell =>
      by_cases same : other = name
      · subst same
        rw [Change.accepted?, Change.cell?, put_of_some found, if_pos ⟨rfl, rfl⟩, if_pos rfl]
      · rw [Change.accepted?, Change.cell?, if_neg fun both => same both.1, if_neg same]

theorem accepted?_of_none (missing : store.table? name = none) (change : Change) :
    change.accepted? name store = none := by
  cases change with
  | addTable other => rfl
  | put other cell =>
      refine if_neg fun both => ?_
      rw [both.1, put_of_none missing] at both
      exact absurd both.2 (by decide)

theorem accepted_of_some (changes : List Change) {table : Table}
    (sorted : Sorted.Increasing store.tables) (found : store.table? name = some table) :
    accepted name store changes = changes.filterMap (Change.cell? name) := by
  induction changes generalizing store table with
  | nil => rfl
  | cons first changes ih =>
      have next := table?_change sorted first name
      rw [found] at next
      rw [accepted, accepted?_of_some found, ih (increasing_change sorted first) next,
        List.filterMap_cons]
      cases first.cell? name with
      | none => rfl
      | some cell => rfl

/-- The puts that succeed are those after the table was added. -/
theorem accepted_of_none (changes : List Change) (sorted : Sorted.Increasing store.tables)
    (missing : store.table? name = none) :
    accepted name store changes = Change.written name changes := by
  induction changes generalizing store with
  | nil => rfl
  | cons first changes ih =>
      have next := table?_change sorted first name
      rw [missing] at next
      rw [accepted, accepted?_of_none missing, Option.toList_none, List.nil_append]
      by_cases same : first = .addTable name
      · subst same
        rw [if_pos rfl] at next
        rw [accepted_of_some changes (increasing_change sorted _) next, Change.written,
          List.dropWhile_cons_of_neg (by simp)]
        rfl
      · rw [if_neg same] at next
        rw [ih (increasing_change sorted first) next, Change.written, Change.written,
          List.dropWhile_cons_of_pos (by simpa using same)]

theorem increasing_changes (changes : List Change) (sorted : Sorted.Increasing store.tables) :
    Sorted.Increasing (changes.foldl Store.change store).tables := by
  induction changes generalizing store with
  | nil => exact sorted
  | cons first changes ih => exact ih (increasing_change sorted first)

theorem holds_of_table? {changes : List Change} {table : Table}
    (found : (after changes).table? name = some table) :
    Table.Holds (Change.written name changes) table := by
  rw [table?_after] at found
  split at found
  · cases found
    exact Table.holds_foldl_put _
  · cases found

theorem put_changes {table : Table} (sorted : Sorted.Increasing store.tables)
    (found : store.table? name = some table) (cell : Cell) :
    ∃ next, store.put name cell = .ok next ∧ next.table? name = some (table.put cell) ∧
      ∀ other, other ≠ name → next.table? other = store.table? other :=
  ⟨_, put_of_some found cell, Sorted.lookup_alter_self sorted _ _,
    fun _ different => Sorted.lookup_alter_of_ne different _ _⟩

theorem eq_of_table? {other : Store} (sorted : Sorted.Increasing store.tables)
    (other_sorted : Sorted.Increasing other.tables)
    (same : ∀ name, store.table? name = other.table? name) : store = other := by
  obtain ⟨tables⟩ := store
  obtain ⟨others⟩ := other
  exact congrArg Store.mk (Sorted.eq_of_lookup sorted other_sorted same)

theorem addTable_of_some {table : Table} (sorted : Sorted.Increasing store.tables)
    (found : store.table? name = some table) : store.addTable name = store := by
  refine eq_of_table? (increasing_change sorted (.addTable name)) sorted fun other => ?_
  have changed := table?_change sorted (.addTable name) other
  rw [Store.change] at changed
  rw [changed]
  cases there : store.table? other with
  | none =>
      refine if_neg fun same => ?_
      obtain rfl := Change.addTable.inj same
      cases found.symm.trans there
  | some table => rfl

theorem change_put_comm {other : Bytes} {first second : Cell}
    (sorted : Sorted.Increasing store.tables)
    (sound : ∀ name table, store.table? name = some table → table.Sound)
    (apart : name = other → first.row = second.row → first.coordinate ≠ second.coordinate) :
    (store.change (.put name first)).change (.put other second) =
      (store.change (.put other second)).change (.put name first) := by
  have after_first := increasing_change sorted (.put name first)
  have after_second := increasing_change sorted (.put other second)
  refine eq_of_table? (increasing_change after_first _) (increasing_change after_second _)
    fun place => ?_
  rw [table?_change after_first, table?_change sorted, table?_change after_second,
    table?_change sorted]
  cases found : store.table? place with
  | none => simp
  | some table =>
      simp only [Change.cell?, Option.some.injEq]
      by_cases here : name = place
      · subst here
        by_cases same : other = name
        · subst same
          simpa using Table.put_comm (sound _ _ found) (apart rfl)
        · simp [same]
      · simp [here]

/-- Whatever tables were added and cells put, each table is the map of the last cells that were put
there once it existed, and these are the puts that succeeded. A put to a table that exists changes
it and no other; one to a table that does not exist fails for misuse; to add a table that exists
changes nothing; a cursor that selects nothing in particular gives all rows in order; and
puts at different places can be made in either order. -/
theorem store_keeps_last_writes (changes : List Change) (name : Bytes) :
    let store := Store.after changes
    (store.table? name ≠ none ↔ .addTable name ∈ changes) ∧
    (store.table? name = none → ∀ cell,
      (∃ e, store.put name cell = .error e ∧ e.kind = .usage) ∧
        store.change (.put name cell) = store) ∧
    (∀ table, store.table? name = some table →
      store.addTable name = store ∧
      (∀ cell, ∃ next, store.put name cell = .ok next ∧ next.table? name = some (table.put cell) ∧
        ∀ other, other ≠ name → next.table? other = store.table? other) ∧
      accepted name {} changes = Change.written name changes ∧
      LastWrites (Change.written name changes) table.listing ∧
      (∀ cell, table.put cell = Sorted.alter cell.row
        (fun row => Sorted.file cell.coordinate cell (row.getD [])) table) ∧
      ∀ counters, ∃ cursor opened,
        store.openCursor name {} counters = (.ok cursor, opened) ∧
          Source.course cursor opened = { items := table.listing.map Prod.snd }) ∧
    ∀ other first second,
      (name = other → first.row = second.row → first.coordinate ≠ second.coordinate) →
        (store.change (.put name first)).change (.put other second) =
          (store.change (.put other second)).change (.put name first) := by
  intro store
  have sorted : Sorted.Increasing store.tables := increasing_changes changes .nil
  refine ⟨?_, fun missing cell => ?_, fun table found => ?_, fun other first second apart => ?_⟩
  · rw [table?_after]
    simp
  · have refused := put_of_none missing cell
    refine ⟨⟨_, refused, rfl⟩, ?_⟩
    rw [Store.change, refused]
  · have holds := holds_of_table? found
    refine ⟨addTable_of_some sorted found, put_changes sorted found,
      accepted_of_none changes .nil rfl, holds.lastWrites, Table.put_eq_file holds.sound,
      fun counters =>
        ⟨⟨some table.rows, {}⟩, { counters with opens := counters.opens + 1 }, ?_, ?_⟩⟩
    · rw [openCursor, found]
    · rw [Cursor.course_eq, Table.results_default holds.sound, Table.listing_rows]
  · exact change_put_comm sorted (fun _ _ found => (holds_of_table? found).sound) apart

end Store

end TupleWire
