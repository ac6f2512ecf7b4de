import TupleWire.Proofs.Scan.Covering
import TupleWire.Proofs.Scan.Pairing
import TupleWire.Proofs.Store.SortedMap

/-! What a store leaves out of a row for the sake of the columns is not missed: the frames of a
scan are those of the whole rows. -/
namespace TupleWire

namespace Selection

variable {selection : Selection} {row : Row} {rows rest : List Row}

def touches (selection : Selection) (row : Row) : Bool :=
  row.any fun cell => selection.takes cell.family cell.qualifier

theorem restrict_eq_nil_iff : selection.restrict row = [] ↔ selection.touches row = false := by
  rw [restrict, List.filter_eq_nil_iff, touches, List.any_eq_false]

theorem isEmpty_restrict (selection : Selection) (row : Row) :
    (selection.restrict row).isEmpty = !selection.touches row := by
  cases touched : selection.touches row with
  | false => rw [restrict_eq_nil_iff.mpr touched]; rfl
  | true =>
      have full : selection.restrict row ≠ [] := fun none => by
        rw [restrict_eq_nil_iff.mp none] at touched
        cases touched
      simpa using full

theorem filter_of_firstRow?_eq_none (none_left : selection.firstRow? rows = none) :
    rows.filter selection.touches = [] := by
  induction rows with
  | nil => rfl
  | cons first rows ih =>
      rw [firstRow?, isEmpty_restrict] at none_left
      cases touched : selection.touches first with
      | false =>
          rw [touched] at none_left
          rw [List.filter_cons_of_neg (by simp [touched])]
          exact ih none_left
      | true =>
          rw [touched] at none_left
          cases none_left

theorem filter_of_firstRow?_eq_some {cut : Row}
    (found : selection.firstRow? rows = some (cut, rest)) :
    ∃ row ∈ rows, cut = selection.restrict row ∧ selection.touches row = true ∧
      rows.filter selection.touches = row :: rest.filter selection.touches ∧ rest ⊆ rows := by
  induction rows with
  | nil => cases found
  | cons first rows ih =>
      rw [firstRow?, isEmpty_restrict] at found
      cases touched : selection.touches first with
      | false =>
          rw [touched] at found
          obtain ⟨row, member, same, taken, passed, later⟩ := ih found
          refine ⟨row, List.mem_cons_of_mem _ member, same, taken, ?_,
            fun row member => List.mem_cons_of_mem _ (later member)⟩
          rw [List.filter_cons_of_neg (by simp [touched]), passed]
      | true =>
          rw [touched] at found
          cases found
          exact ⟨first, List.mem_cons_self, rfl, touched, List.filter_cons_of_pos touched,
            fun row member => List.mem_cons_of_mem _ member⟩

end Selection

theorem Selection.sameShown_restrict {heading : Heading} {key : Bytes} {row : Row}
    (keyed : row.OfKey key) (touched : (ofHeading heading).touches row = true) :
    Layout.SameShown ((ofHeading heading).restrict row) row heading.columns where
  key := by
    -- Any cell has the key, so the first that is left tells the same one as the first of all.
    have some_left : (ofHeading heading).restrict row ≠ [] := fun none => by
      rw [restrict_eq_nil_iff.mp none] at touched
      cases touched
    have cut : Row.OfKey key ((ofHeading heading).restrict row) := fun cell member =>
      keyed cell (List.mem_filter.mp member).1
    rw [cut.key? some_left]
    refine keyed.key? fun none => ?_
    rw [none] at touched
    cases touched
  entries name member := (entries_restrict member row).symm

def Script.ofRows (rows : List Row) : Script := { results := rows.map (.ok ∘ some) }

/-- A cursor that takes what the columns need, beside a source that gives the whole rows. -/
def Cursor.pairing (heading : Heading) : Pairing Cursor Counters Script Traffic heading where
  sources cursor script := ∃ rows : List Row,
    (∀ row ∈ rows, ∃ key, row.OfKey key) ∧ cursor = ⟨some rows, .ofHeading heading⟩ ∧
      script = .ofRows (rows.filter (Selection.ofHeading heading).touches)
  fetch := by
    rintro _ _ ⟨rows, keyed, rfl, rfl⟩ counters traffic
    cases found : (Selection.ofHeading heading).firstRow? rows with
    | none =>
        rw [fetch_of_end found, Selection.filter_of_firstRow?_eq_none found]
        exact ⟨.ended, [], nofun, rfl, rfl⟩
    | some split =>
        obtain ⟨cut, rest⟩ := split
        obtain ⟨row, member, rfl, touched, passed, later⟩ :=
          Selection.filter_of_firstRow?_eq_some found
        obtain ⟨key, own⟩ := keyed row member
        rw [fetch_of_row found, passed]
        exact ⟨.row (Selection.sameShown_restrict own touched), rest,
          fun row member => keyed row (later member), rfl, rfl⟩

theorem Script.course_ofRows (rows : List Row) (traffic : Traffic) :
    Source.course (ofRows rows) traffic = { items := rows } := by
  induction rows generalizing traffic with
  | nil => exact Source.course_of_end rfl
  | cons row rows ih =>
      have fetched : (Source.fetch (ofRows (row :: rows)) traffic).result = .ok (some row) := rfl
      rw [Source.course_of_row fetched]
      exact congrArg (Course.cons row) (ih _)

namespace Table

theorem Sound.keys_of_filter {table : Table} (sound : table.Sound) (keep : Row → Bool) :
    ∃ keys : List Bytes, (table.rows.filter keep).map Row.key? = keys.map some ∧
      keys.Pairwise (· < ·) := by
  refine ⟨(table.filter fun entry => keep (entry.2.map Prod.snd)).map Prod.fst, ?_, ?_⟩
  · rw [rows, List.filter_map, List.map_map, List.map_map]
    refine List.map_congr_left fun entry member => ?_
    have stored := (List.mem_filter.mp member).1
    exact (sound.ofKey stored).key? (sound.full stored)
  · rw [List.pairwise_map]
    exact sound.increasing.filter _

theorem Sound.filter_touches {table : Table} (sound : table.Sound) {heading : Heading}
    (keys : ∀ column ∈ heading.columns, column = .rowKey) :
    table.rows.filter (Selection.ofHeading heading).touches = table.rows := by
  refine List.filter_eq_self.mpr fun row member => ?_
  obtain ⟨entry, stored, rfl⟩ := List.mem_map.mp member
  obtain ⟨cell, inside⟩ := List.exists_mem_of_ne_nil _ (sound.full stored)
  exact List.any_eq_true.mpr ⟨cell, inside, (Selection.takes_ofHeading heading _ _).mpr (.inl keys)⟩

end Table

/-- A scan of a table answers like a scan of its whole rows without those that are passed over. -/
theorem Table.Sound.run_start {table : Table} (sound : table.Sound) (heading : Heading) (room : Nat)
    (counters : Counters) (traffic : Traffic) (calls : List Call) :
    let whole := Script.ofRows (table.rows.filter (Selection.ofHeading heading).touches)
    (Handle.run ⟨some (.start (⟨some table.rows, .ofHeading heading⟩ : Cursor) heading room),
        counters⟩ calls).1 =
      (Handle.run ⟨some (.start whole heading room), traffic⟩ calls).1 := by
  intro whole
  have paired : (Cursor.pairing heading).sources ⟨some table.rows, .ofHeading heading⟩ whole := by
    refine ⟨table.rows, fun row member => ?_, rfl, rfl⟩
    obtain ⟨entry, stored, rfl⟩ := List.mem_map.mp member
    exact ⟨entry.1, sound.ofKey stored⟩
  have handles : (Cursor.pairing heading).Handles
      ⟨some (.start ⟨some table.rows, .ofHeading heading⟩ heading room), counters⟩
      ⟨some (.start whole heading room), traffic⟩ := .some (Pairing.scans_start paired room)
  exact (handles.run calls).1.symm

/-- Whatever was put into a store, the frames of a scan do not tell that only a part of each row was
fetched. A row written from what is taken of it, if that is anything, gives the bytes or the failure
of the whole row. A scan of a table answers every call like a scan of the whole rows in the order of
their keys, without those of which nothing is taken, and those are none if no column is of a
family. -/
theorem projection_is_invisible (heading : Heading) :
    let selection := Selection.ofHeading heading
    (∀ row key buf, Row.OfKey key row → selection.restrict row ≠ [] →
      (Write.putRow (selection.restrict row) heading.columns).on buf =
        (Write.putRow row heading.columns).on buf) ∧
    ∀ changes name room counters table, (Store.after changes).table? name = some table →
      let kept := table.rows.filter selection.touches
      (∃ scan opened,
        (Store.after changes).startScan name heading room counters = (.ok scan, opened) ∧
        (∀ traffic calls, (Handle.run ⟨some scan, opened⟩ calls).1 =
          (Handle.run ⟨some (.start (Script.ofRows kept) heading room), traffic⟩ calls).1) ∧
        ((∀ row ∈ kept, row.Fits heading.columns room) →
          (Handle.run ⟨some scan, opened⟩ (List.replicate (kept.length + 1) .next)).1 =
            (kept.map fun row => .frame (.ok (some (Layout.row 0 row heading.columns)))) ++
              [.frame (.ok none)])) ∧
      (∃ keys : List Bytes, kept.map Row.key? = keys.map some ∧ keys.Pairwise (· < ·)) ∧
      ((∀ column ∈ heading.columns, column = .rowKey) → kept = table.rows) := by
  intro selection
  refine ⟨fun row key buf keyed some_left => ?_, fun changes name room counters table found => ?_⟩
  · have touched : selection.touches row = true := by
      cases touched : selection.touches row with
      | true => rfl
      | false => exact absurd (Selection.restrict_eq_nil_iff.mpr touched) some_left
    rw [Write.putRow_congr (Selection.sameShown_restrict keyed touched)]
  · intro kept
    have sound := (Store.holds_of_table? found).sound
    have started : (Store.after changes).startScan name heading room counters =
        (.ok (.start ⟨some table.rows, selection⟩ heading room),
          { counters with opens := counters.opens + 1 }) := by
      rw [Store.startScan, Store.openCursor, found]
      rfl
    refine ⟨⟨_, _, started, sound.run_start heading room _, fun fits => ?_⟩,
      sound.keys_of_filter _, sound.filter_touches⟩
    rw [sound.run_start heading room _ {}]
    exact Scan.run_next_midway (Script.course_ofRows kept {}) fits 0

/-- A cell of another family is left out, and a row of no other cells is passed over. -/
example :
    let selection := Selection.ofHeading ⟨[.rowKey, .leaf [102] [1]], by decide⟩
    let rows : List Row := [[⟨[1], [103], [1], [7]⟩],
      [⟨[2], [102], [1], [8]⟩, ⟨[2], [103], [1], [9]⟩]]
    rows.filter selection.touches = rows.drop 1 ∧
      selection.results rows = [[⟨[2], [102], [1], [8]⟩]] := by
  decide

end TupleWire
