import TupleWire.Proofs.Frame.RowReading
import TupleWire.Proofs.Store.LastWrite
import TupleWire.Store.Cursor
import Mathlib.Data.List.Forall2

/-! The rows that a scan of a table is to show: one for each key under which something is
taken, and under each column what was written there last. -/
namespace TupleWire

namespace Selection

variable {selection : Selection} {rows rest : List Row} {row : Row}

/-- The rows of which something is taken, each cut down to that. -/
def results (selection : Selection) (rows : List Row) : List Row :=
  (rows.map selection.restrict).filter (· ≠ [])

theorem results_of_firstRow?_eq_none (h : selection.firstRow? rows = none) :
    selection.results rows = [] := by
  induction rows with
  | nil => rfl
  | cons first rows ih =>
      rw [firstRow?] at h
      split at h
      · next empty =>
          rw [results, List.map_cons, List.filter_cons_of_neg (by simpa using empty)]
          exact ih h
      · cases h

theorem results_of_firstRow?_eq_some (h : selection.firstRow? rows = some (row, rest)) :
    selection.results rows = row :: selection.results rest := by
  induction rows with
  | nil => cases h
  | cons first rows ih =>
      rw [firstRow?] at h
      split at h
      · next empty =>
          rw [results, List.map_cons, List.filter_cons_of_neg (by simpa using empty)]
          exact ih h
      · next full =>
          cases h
          rw [results, List.map_cons, List.filter_cons_of_pos (by simpa using full)]
          rfl

theorem takes_family {heading : Heading} {name : Bytes} (h : .family name ∈ heading.columns)
    (qualifier : Bytes) : (ofHeading heading).takes name qualifier = true := by
  have whole : name ∈ (heading.columns.filterMap Column.wholeFamily?).eraseDups := by
    rw [List.mem_eraseDups, List.mem_filterMap]
    exact ⟨.family name, h, rfl⟩
  simp [takes, ofHeading, whole]

theorem entries_restrict {heading : Heading} {name : Bytes} (h : .family name ∈ heading.columns)
    (row : Row) : ((ofHeading heading).restrict row).entries name = row.entries name := by
  have same : ((ofHeading heading).restrict row).family name = row.family name := by
    rw [Row.family, restrict, List.filter_filter]
    apply List.filter_congr
    intro cell _
    by_cases here : cell.family = name
    · rw [here, takes_family h, Bool.and_true]
    · simp [here]
  rw [Row.entries, same, Row.entries]

end Selection

/-- What a column has to show of the row `key` after the cells were written. -/
def Column.Shows (cells : List Cell) (key : Bytes) (column : Column) (value : Value) : Prop :=
  match column with
  | .rowKey => value = .scalar key
  | .family name =>
      ∃ entries, value = .object ⟨entries⟩ ∧ Sorted.Increasing entries ∧
        ∀ qualifier content, (qualifier, content) ∈ entries ↔
          (Cell.last? cells key ⟨name, qualifier⟩).map Cell.value = some content
  | .leaf _ _ => value = .null

namespace Table

variable {key : Bytes} {row : List (Coordinate × Cell)}

theorem mem_cells (filed : Filed key row) {cell : Cell} :
    cell ∈ row.map Prod.snd ↔ row.lookup cell.coordinate = some cell := by
  rw [← Sorted.mem_iff_lookup filed.increasing, List.mem_map]
  constructor
  · rintro ⟨⟨place, cell⟩, member, rfl⟩
    have here := (filed.placed _ member).2
    exact here ▸ member
  · intro member
    exact ⟨_, member, rfl⟩

theorem increasing_entries (filed : Filed key row) (name : Bytes) :
    Sorted.Increasing (Row.entries (row.map Prod.snd) name) := by
  have places : (row.map Prod.snd).Pairwise fun a b => a.coordinate < b.coordinate := by
    rw [List.pairwise_map]
    refine filed.increasing.imp_of_mem ?_
    intro a b first second less
    rw [(filed.placed a first).2, (filed.placed b second).2]
    exact less
  rw [Sorted.Increasing, Row.entries, List.pairwise_map]
  refine (places.filter _).imp_of_mem ?_
  intro a b first second less
  have here : a.family = name := by simpa using (List.mem_filter.mp first).2
  have there : b.family = name := by simpa using (List.mem_filter.mp second).2
  rcases less with family | ⟨_, qualifier⟩
  · change a.family < b.family at family
    rw [here, there] at family
    exact absurd family (Std.Irrefl.irrefl _)
  · exact qualifier

theorem mem_entries (filed : Filed key row) {name qualifier content : Bytes} :
    (qualifier, content) ∈ Row.entries (row.map Prod.snd) name ↔
      (row.lookup ⟨name, qualifier⟩).map Cell.value = some content := by
  rw [Row.entries, List.mem_map, Option.map_eq_some_iff]
  constructor
  · rintro ⟨cell, member, same⟩
    obtain ⟨inside, family⟩ := List.mem_filter.mp member
    have here : cell.family = name := by simpa using family
    obtain ⟨rfl, rfl⟩ := Prod.mk.inj same
    subst here
    exact ⟨cell, (mem_cells filed).mp inside, rfl⟩
  · rintro ⟨cell, found, rfl⟩
    have member := (Sorted.mem_iff_lookup filed.increasing).mpr found
    have place := (filed.placed _ member).2
    have family : cell.family = name := congrArg Coordinate.family place
    have last : cell.qualifier = qualifier := congrArg Coordinate.qualifier place
    have inside : cell ∈ row.map Prod.snd := List.mem_map.mpr ⟨_, member, rfl⟩
    exact ⟨cell, List.mem_filter.mpr ⟨inside, by simpa using family⟩, by rw [last]⟩

def taken (table : Table) (selection : Selection) : Table :=
  table.filter fun entry => selection.restrict (entry.2.map Prod.snd) ≠ []

theorem results_rows (table : Table) (selection : Selection) :
    selection.results table.rows =
      (table.taken selection).map fun entry => selection.restrict (entry.2.map Prod.snd) := by
  rw [Selection.results, rows, List.map_map, List.filter_map, taken]
  rfl

variable {cells : List Cell} {table : Table}

/-- The row of a table under a key, and what was written there last. -/
structure Holds (cells : List Cell) (table : Table) : Prop where
  sound : table.Sound
  content : ∀ key place, table.cell? key place = Cell.last? cells key place

theorem holds_foldl_put (cells : List Cell) : Holds cells (cells.foldl put []) := by
  obtain ⟨sound, content⟩ := sound_foldl_put cells sound_empty
  refine ⟨sound, fun key place => (content key place).trans ?_⟩
  exact Option.or_none

theorem Holds.lookup (holds : Holds cells table) (member : (key, row) ∈ table)
    (place : Coordinate) : row.lookup place = Cell.last? cells key place := by
  have found := (Sorted.mem_iff_lookup holds.sound.increasing).mp member
  rw [← holds.content, cell?, found, Option.bind_some]

/-- Each column of a stored row has what it is to show, as far as the selection takes it. -/
theorem Holds.shows (holds : Holds cells table) {heading : Heading}
    (member : (key, row) ∈ table.taken (.ofHeading heading)) {column : Column}
    (listed : column ∈ heading.columns) {value : Value}
    (shown : ((Selection.ofHeading heading).restrict (row.map Prod.snd)).value? column =
      some value) :
    column.Shows cells key value := by
  obtain ⟨stored, full⟩ := List.mem_filter.mp member
  have filed := (holds.sound.filed _ stored).1
  cases column with
  | rowKey =>
      obtain ⟨cell, rest, split⟩ := List.exists_cons_of_ne_nil (of_decide_eq_true full)
      have first : cell ∈ (Selection.ofHeading heading).restrict (row.map Prod.snd) := by
        rw [split]
        exact List.mem_cons_self
      obtain ⟨entry, inside, rfl⟩ := List.mem_map.mp (List.mem_filter.mp first).1
      rw [Row.value?, split] at shown
      cases shown
      exact congrArg Value.scalar (filed.placed entry inside).1
  | family name =>
      rw [Row.value?, Selection.entries_restrict listed] at shown
      cases shown
      refine ⟨_, rfl, increasing_entries filed name, fun qualifier content => ?_⟩
      rw [mem_entries filed, holds.lookup stored]
  | leaf name qualifier =>
      cases shown
      rfl

theorem Holds.mem_keys (holds : Holds cells table) (selection : Selection) (key : Bytes) :
    key ∈ (table.taken selection).map Prod.fst ↔
      ∃ cell ∈ cells, cell.row = key ∧ selection.takes cell.family cell.qualifier = true := by
  rw [List.mem_map]
  constructor
  · rintro ⟨⟨key, row⟩, member, rfl⟩
    obtain ⟨stored, full⟩ := List.mem_filter.mp member
    obtain ⟨cell, some⟩ := List.exists_mem_of_ne_nil _ (of_decide_eq_true full)
    obtain ⟨inside, takes⟩ := List.mem_filter.mp some
    have found := (mem_cells (holds.sound.filed _ stored).1).mp inside
    rw [holds.lookup stored] at found
    obtain ⟨written, here, _⟩ := Cell.of_last? found
    exact ⟨cell, written, here, takes⟩
  · rintro ⟨cell, written, rfl, takes⟩
    obtain ⟨last, found⟩ := Cell.exists_last? written
    have place := (Cell.of_last? found).2.2
    rw [← holds.content, cell?, Option.bind_eq_some_iff] at found
    obtain ⟨row, stored, found⟩ := found
    have entry := (Sorted.mem_iff_lookup holds.sound.increasing).mpr stored
    have inside := (mem_cells (holds.sound.filed _ entry).1).mpr (place ▸ found)
    have kept : last ∈ selection.restrict (row.map Prod.snd) := by
      obtain ⟨family, qualifier⟩ := Coordinate.mk.inj place
      exact List.mem_filter.mpr ⟨inside, by rw [family, qualifier]; exact takes⟩
    exact ⟨_, List.mem_filter.mpr ⟨entry, decide_eq_true (List.ne_nil_of_mem kept)⟩, rfl⟩

end Table

end TupleWire
