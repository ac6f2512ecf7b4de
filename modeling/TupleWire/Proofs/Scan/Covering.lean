import Mathlib.Data.List.Induction
import TupleWire.Scan.Selection

/-! The selection that serves the columns of a scan: it takes what they need, and of its entries
none can be spared. -/
namespace TupleWire

section Concat

variable {α β : Type}

theorem filterMap_concat_of_none {read : β → Option α} {last : β} (skipped : read last = none)
    (entries : List β) : (entries ++ [last]).filterMap read = entries.filterMap read := by
  rw [List.filterMap_append, List.filterMap_cons_none skipped, List.filterMap_nil,
    List.append_nil]

theorem filterMap_concat_of_some {read : β → Option α} {last : β} {entry : α}
    (found : read last = some entry) (entries : List β) :
    (entries ++ [last]).filterMap read = entries.filterMap read ++ [entry] := by
  rw [List.filterMap_append, List.filterMap_cons_some found, List.filterMap_nil]

theorem eraseDups_concat [BEq α] [LawfulBEq α] (entries : List α) (entry : α) :
    (entries ++ [entry]).eraseDups =
      if entry ∈ entries then entries.eraseDups else entries.eraseDups ++ [entry] := by
  rw [List.eraseDups_append, List.removeAll]
  by_cases known : entry ∈ entries
  · simp [known]
  · simp [known, List.eraseDups_cons]

end Concat

/-- The wanted entries that columns stand for are listed, each once, in the order in which their
columns first appear. -/
structure Lists {α : Type} (columns : List Column) (column : α → Column) (wanted : α → Prop)
    (entries : List α) : Prop where
  mem : ∀ entry, entry ∈ entries ↔ column entry ∈ columns ∧ wanted entry
  order : entries.Pairwise fun a b => columns.idxOf (column a) < columns.idxOf (column b)

namespace Lists

variable {α : Type} {columns : List Column} {column : α → Column} {wanted : α → Prop}
  {entries : List α} {last : Column}

theorem nodup (lists : Lists columns column wanted entries) : entries.Nodup :=
  lists.order.imp fun less same => Nat.ne_of_lt less (congrArg (columns.idxOf ∘ column) same)

theorem order_append (lists : Lists columns column wanted entries) (back : List Column) :
    entries.Pairwise fun a b =>
      (columns ++ back).idxOf (column a) < (columns ++ back).idxOf (column b) := by
  refine lists.order.imp_of_mem fun first second less => ?_
  rw [List.idxOf_append, List.idxOf_append, if_pos ((lists.mem _).mp first).1,
    if_pos ((lists.mem _).mp second).1]
  exact less

theorem stay (lists : Lists columns column wanted entries)
    (known : ∀ entry, last = column entry → wanted entry → entry ∈ entries) :
    Lists (columns ++ [last]) column wanted entries where
  mem entry := by
    rw [lists.mem, List.mem_append, List.mem_singleton]
    constructor
    · rintro ⟨early, want⟩
      exact ⟨.inl early, want⟩
    · rintro ⟨early | same, want⟩
      · exact ⟨early, want⟩
      · exact (lists.mem entry).mp (known entry same.symm want)
  order := lists.order_append [last]

theorem add (lists : Lists columns column wanted entries) (injective : column.Injective)
    {entry : α} (want : wanted entry) (fresh : entry ∉ entries) :
    Lists (columns ++ [column entry]) column wanted (entries ++ [entry]) where
  mem other := by
    rw [List.mem_append, List.mem_append, List.mem_singleton, List.mem_singleton, lists.mem]
    constructor
    · rintro (⟨early, want⟩ | rfl)
      · exact ⟨.inl early, want⟩
      · exact ⟨.inr rfl, want⟩
    · rintro ⟨early | same, want⟩
      · exact .inl ⟨early, want⟩
      · exact .inr (injective same)
  order := by
    have new : column entry ∉ columns := fun early => fresh ((lists.mem entry).mpr ⟨early, want⟩)
    refine List.pairwise_append.mpr
      ⟨lists.order_append _, List.pairwise_singleton _ _, fun other member last same => ?_⟩
    obtain rfl := List.mem_singleton.mp same
    have early := ((lists.mem other).mp member).1
    rw [List.idxOf_append, List.idxOf_append, if_pos early, if_neg new]
    exact Nat.lt_of_lt_of_le (List.idxOf_lt_length_of_mem early) (Nat.le_add_left _ _)

end Lists

/-- What is left when the entries that the columns stand for are rid of those that are not wanted
and of repetitions. -/
theorem lists_eraseDups {α : Type} [BEq α] [LawfulBEq α] {read : Column → Option α}
    {column : α → Column} (reads : ∀ c entry, read c = some entry ↔ c = column entry) (wanted : α → Prop)
    [DecidablePred wanted] (columns : List Column) :
    Lists columns column wanted ((columns.filterMap read).filter (wanted ·)).eraseDups := by
  have injective : column.Injective := fun a b same =>
    Option.some.inj (((reads _ a).mpr rfl).symm.trans ((reads _ b).mpr same))
  -- Columns are read from the front and the list grows at its end.
  induction columns using List.reverseRecOn with
  | nil => exact ⟨fun _ => ⟨nofun, fun both => nomatch both.1⟩, .nil⟩
  | append_singleton columns last ih =>
      cases found : read last with
      | none =>
          rw [filterMap_concat_of_none found]
          refine ih.stay fun entry here _ => ?_
          cases found.symm.trans ((reads last entry).mpr here)
      | some entry =>
          obtain rfl := (reads last entry).mp found
          rw [filterMap_concat_of_some found, List.filter_append]
          by_cases want : wanted entry
          · rw [List.filter_cons_of_pos (by simpa using want), List.filter_nil, eraseDups_concat]
            split
            · next known =>
                refine ih.stay fun other here _ => ?_
                rw [← injective here]
                exact List.mem_eraseDups.mpr known
            · next fresh =>
                exact ih.add injective want fun known => fresh (List.mem_eraseDups.mp known)
          · rw [List.filter_cons_of_neg (by simpa using want), List.filter_nil, List.append_nil]
            refine ih.stay fun other here wantOther => ?_
            rw [← injective here] at wantOther
            exact absurd wantOther want

namespace Selection

def addFamily (selection : Selection) (column : Column) : Selection :=
  match column.wholeFamily? with
  | none => selection
  | some name =>
      if selection.families.contains name then selection
      else { selection with families := selection.families ++ [name] }

def addLeaf (selection : Selection) (column : Column) : Selection :=
  match column.leaf? with
  | none => selection
  | some leaf =>
      if selection.families.contains leaf.1 || selection.leaves.contains leaf then selection
      else { selection with leaves := selection.leaves ++ [leaf] }

/-- What the one takes is taken by the other, which takes more. -/
structure TakesLess (less selection : Selection) : Prop where
  taken : ∀ family qualifier, less.takes family qualifier = true →
    selection.takes family qualifier = true
  left : ∃ family qualifier, selection.takes family qualifier = true ∧
    less.takes family qualifier = false

def size (selection : Selection) : Nat := selection.families.length + selection.leaves.length

/-- No entry is there twice, and no leaf is of a family that is taken as a whole. -/
structure Irredundant (selection : Selection) : Prop where
  families : selection.families.Nodup
  leaves : selection.leaves.Nodup
  apart : ∀ leaf ∈ selection.leaves, leaf.1 ∉ selection.families

theorem takes_iff {selection : Selection} {family qualifier : Bytes} :
    selection.takes family qualifier = true ↔
      (selection.families = [] ∧ selection.leaves = []) ∨ family ∈ selection.families ∨
        (family, qualifier) ∈ selection.leaves := by
  simp [takes, takesAll, or_assoc]

theorem takes_iff_of_size_pos {selection : Selection} (some_entry : 0 < selection.size)
    {family qualifier : Bytes} :
    selection.takes family qualifier = true ↔
      family ∈ selection.families ∨ (family, qualifier) ∈ selection.leaves := by
  rw [takes_iff]
  refine or_iff_right fun ⟨no_family, no_leaf⟩ => ?_
  rw [size, no_family, no_leaf] at some_entry
  exact absurd some_entry (Nat.lt_irrefl 0)

theorem takesLess_of_subset {less selection : Selection} (some_entry : 0 < less.size)
    (families : less.families ⊆ selection.families) (leaves : less.leaves ⊆ selection.leaves)
    {family qualifier : Bytes} (taken : selection.takes family qualifier = true)
    (whole : family ∉ less.families) (single : (family, qualifier) ∉ less.leaves) :
    TakesLess less selection where
  taken other place kept := by
    rcases (takes_iff_of_size_pos some_entry).mp kept with listed | listed
    · exact takes_iff.mpr (.inr (.inl (families listed)))
    · exact takes_iff.mpr (.inr (.inr (leaves listed)))
  left := by
    refine ⟨family, qualifier, taken, Bool.eq_false_iff.mpr fun kept => ?_⟩
    exact ((takes_iff_of_size_pos some_entry).mp kept).elim whole single

theorem Irredundant.takesLess_family {selection : Selection} (lean : selection.Irredundant)
    (large : 2 ≤ selection.size) {name : Bytes} (listed : name ∈ selection.families) :
    TakesLess { selection with families := selection.families.erase name } selection := by
  have shorter := List.length_erase_of_mem listed
  have some_entry : 0 < { selection with families := selection.families.erase name }.size := by
    simp only [size] at large ⊢
    omega
  have taken : selection.takes name [] = true := takes_iff.mpr (.inr (.inl listed))
  refine takesLess_of_subset some_entry List.erase_subset (List.Subset.refl _) taken ?_ ?_
  · exact fun again => (lean.families.mem_erase_iff.mp again).1 rfl
  · exact fun leaf => lean.apart _ leaf listed

theorem Irredundant.takesLess_leaf {selection : Selection} (lean : selection.Irredundant)
    (large : 2 ≤ selection.size) {leaf : Bytes × Bytes} (listed : leaf ∈ selection.leaves) :
    TakesLess { selection with leaves := selection.leaves.erase leaf } selection := by
  have shorter := List.length_erase_of_mem listed
  have some_entry : 0 < { selection with leaves := selection.leaves.erase leaf }.size := by
    simp only [size] at large ⊢
    omega
  have taken : selection.takes leaf.1 leaf.2 = true := takes_iff.mpr (.inr (.inr listed))
  refine takesLess_of_subset some_entry (List.Subset.refl _) List.erase_subset taken ?_ ?_
  · exact lean.apart leaf listed
  · exact fun again => (lean.leaves.mem_erase_iff.mp again).1 rfl

theorem foldl_addFamily (columns : List Column) :
    columns.foldl addFamily {} =
      { families := (columns.filterMap Column.wholeFamily?).eraseDups } := by
  induction columns using List.reverseRecOn with
  | nil => rfl
  | append_singleton columns last ih =>
      rw [List.foldl_append, ih, List.foldl_cons, List.foldl_nil, addFamily]
      cases found : last.wholeFamily? with
      | none => rw [filterMap_concat_of_none found]
      | some name =>
          rw [filterMap_concat_of_some found, eraseDups_concat]
          simp only [List.contains_iff_mem, List.mem_eraseDups]
          split <;> rfl

theorem foldl_addLeaf (columns : List Column) (families : List Bytes) :
    columns.foldl addLeaf { families } =
      { families, leaves :=
          ((columns.filterMap Column.leaf?).filter (·.1 ∉ families)).eraseDups } := by
  induction columns using List.reverseRecOn with
  | nil => rfl
  | append_singleton columns last ih =>
      rw [List.foldl_append, ih, List.foldl_cons, List.foldl_nil, addLeaf]
      cases found : last.leaf? with
      | none => rw [filterMap_concat_of_none found]
      | some leaf =>
          rw [filterMap_concat_of_some found, List.filter_append]
          simp only [Bool.or_eq_true, List.contains_iff_mem, List.mem_eraseDups]
          by_cases covered : leaf.1 ∈ families
          · rw [if_pos (.inl covered), List.filter_cons_of_neg (by simpa using covered),
              List.filter_nil, List.append_nil]
          · rw [List.filter_cons_of_pos (by simpa using covered), List.filter_nil,
              eraseDups_concat]
            simp only [covered, false_or]
            split <;> rfl

section OfHeading

variable (heading : Heading)

theorem lists_families :
    Lists heading.columns .family (fun _ => True) (ofHeading heading).families := by
  have reads : ∀ c name, Column.wholeFamily? c = some name ↔ c = .family name := by
    intro c name
    cases c <;> simp [Column.wholeFamily?]
  have lists := lists_eraseDups reads (fun _ => True) heading.columns
  rwa [List.filter_eq_self.mpr fun _ _ => decide_eq_true trivial] at lists

theorem lists_leaves :
    Lists heading.columns (fun leaf : Bytes × Bytes => .leaf leaf.1 leaf.2)
      (fun leaf => .family leaf.1 ∉ heading.columns) (ofHeading heading).leaves := by
  have reads : ∀ c (leaf : Bytes × Bytes),
      Column.leaf? c = some leaf ↔ c = .leaf leaf.1 leaf.2 := by
    rintro c ⟨name, qualifier⟩
    cases c <;> simp [Column.leaf?]
  have lists : Lists heading.columns _ _ (ofHeading heading).leaves :=
    lists_eraseDups reads (·.1 ∉ (ofHeading heading).families) heading.columns
  have wanted : (fun leaf : Bytes × Bytes => leaf.1 ∉ (ofHeading heading).families) =
      fun leaf => .family leaf.1 ∉ heading.columns := by
    funext leaf
    rw [(lists_families heading).mem, and_true]
  exact wanted ▸ lists

theorem takes_ofHeading (family qualifier : Bytes) :
    (ofHeading heading).takes family qualifier = true ↔
      (∀ column ∈ heading.columns, column = .rowKey) ∨ .family family ∈ heading.columns ∨
        .leaf family qualifier ∈ heading.columns := by
  have families := (lists_families heading).mem
  have leaves := (lists_leaves heading).mem
  rw [takes_iff]
  constructor
  · rintro (⟨no_family, no_leaf⟩ | whole | single)
    · left
      intro column member
      cases column with
      | rowKey => rfl
      | family name =>
          have listed := (families name).mpr ⟨member, trivial⟩
          rw [no_family] at listed
          cases listed
      | leaf name qualifier =>
          have listed := (leaves (name, qualifier)).mpr ⟨member, fun covered => by
            have listed := (families name).mpr ⟨covered, trivial⟩
            rw [no_family] at listed
            cases listed⟩
          rw [no_leaf] at listed
          cases listed
    · exact .inr (.inl ((families family).mp whole).1)
    · exact .inr (.inr ((leaves (family, qualifier)).mp single).1)
  · rintro (keys | whole | single)
    · left
      constructor
      · refine List.eq_nil_iff_forall_not_mem.mpr fun name listed => ?_
        cases keys _ ((families name).mp listed).1
      · refine List.eq_nil_iff_forall_not_mem.mpr fun leaf listed => ?_
        cases keys _ ((leaves leaf).mp listed).1
    · exact .inr (.inl ((families family).mpr ⟨whole, trivial⟩))
    · by_cases covered : .family family ∈ heading.columns
      · exact .inr (.inl ((families family).mpr ⟨covered, trivial⟩))
      · exact .inr (.inr ((leaves (family, qualifier)).mpr ⟨single, covered⟩))

theorem irredundant_ofHeading : (ofHeading heading).Irredundant where
  families := (lists_families heading).nodup
  leaves := (lists_leaves heading).nodup
  apart leaf listed covered := by
    have wanted := (((lists_leaves heading).mem leaf).mp listed).2
    exact wanted (((lists_families heading).mem leaf.1).mp covered).1

/-- The selection is what two passes over the columns collect, first the families and then the
leaves of others. -/
theorem ofHeading_eq_foldl : ofHeading heading =
    heading.columns.foldl addLeaf (heading.columns.foldl addFamily {}) := by
  rw [foldl_addFamily, foldl_addLeaf]
  rfl

end OfHeading

/-- A selection takes exactly the cells that some column needs, and every cell if no column needs
any. Its entries are in the order in which two passes over the columns meet them, without
repetitions and without leaves of whole families. What it takes depends on which columns there are
alone, and of two entries or more none can be left out without taking less. -/
theorem ofHeading_exact_and_minimal (heading : Heading) :
    let selection := ofHeading heading
    (∀ family qualifier, selection.takes family qualifier = true ↔
      (∀ column ∈ heading.columns, column = .rowKey) ∨ .family family ∈ heading.columns ∨
        .leaf family qualifier ∈ heading.columns) ∧
    Lists heading.columns .family (fun _ => True) selection.families ∧
    Lists heading.columns (fun leaf : Bytes × Bytes => .leaf leaf.1 leaf.2)
      (fun leaf => .family leaf.1 ∉ heading.columns) selection.leaves ∧
    selection = heading.columns.foldl addLeaf (heading.columns.foldl addFamily {}) ∧
    (∀ other : Heading, (∀ column, column ∈ other.columns ↔ column ∈ heading.columns) →
      ∀ family qualifier,
        (ofHeading other).takes family qualifier = selection.takes family qualifier) ∧
    (2 ≤ selection.size →
      (∀ name ∈ selection.families,
        TakesLess { selection with families := selection.families.erase name } selection) ∧
      ∀ leaf ∈ selection.leaves,
        TakesLess { selection with leaves := selection.leaves.erase leaf } selection) := by
  intro selection
  have lean := irredundant_ofHeading heading
  refine ⟨takes_ofHeading heading, lists_families heading, lists_leaves heading,
    ofHeading_eq_foldl heading, fun other same family qualifier => ?_, fun large => ?_⟩
  · rw [Bool.eq_iff_iff, takes_ofHeading, takes_ofHeading]
    simp only [same]
  · exact ⟨fun name => lean.takesLess_family large, fun leaf => lean.takesLess_leaf large⟩

/-- A family that comes after one of its leaves, and repetitions. -/
example :
    ofHeading ⟨[.leaf [3] [9], .leaf [1] [2], .rowKey, .family [3], .family [5], .leaf [1] [2],
      .family [3]], by decide⟩ = { families := [[3], [5]], leaves := [([1], [2])] } := by
  decide

end Selection

end TupleWire
