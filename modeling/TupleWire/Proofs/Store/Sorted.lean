import TupleWire.Store.Sorted

/-! Lists in strictly increasing order of their keys, as finite maps. -/
namespace TupleWire.Sorted

variable {κ β : Type} [LT κ]

def Increasing (entries : List (κ × β)) : Prop := entries.Pairwise fun a b => a.1 < b.1

section Lookup

variable [BEq κ] [LawfulBEq κ] {key other : κ} {value : β} {entries : List (κ × β)}

theorem lookup_of_below [Std.Irrefl (α := κ) (· < ·)] (below : ∀ entry ∈ entries, key < entry.1) :
    entries.lookup key = none := by
  rw [List.lookup_eq_none_iff]
  intro entry member
  have less := below entry member
  rw [bne_iff_ne]
  intro same
  exact Std.Irrefl.irrefl _ (same ▸ less)

theorem mem_iff_lookup [Std.Irrefl (α := κ) (· < ·)] (sorted : Increasing entries) :
    (key, value) ∈ entries ↔ entries.lookup key = some value := by
  induction entries with
  | nil => exact ⟨nofun, nofun⟩
  | cons entry rest ih =>
      obtain ⟨first, rest_sorted⟩ := List.pairwise_cons.mp sorted
      obtain ⟨here, kept⟩ := entry
      by_cases same : key = here
      · subst same
        have behind : (key, value) ∉ rest := fun member =>
          Std.Irrefl.irrefl key (first (key, value) member)
        rw [List.lookup_cons_self, List.mem_cons, or_iff_left behind, Prod.mk.injEq,
          Option.some.injEq]
        exact ⟨fun both => both.2.symm, fun same => ⟨rfl, same.symm⟩⟩
      · have other : (key, value) ≠ (here, kept) := fun pair => same (Prod.mk.inj pair).1
        rw [List.mem_cons, or_iff_right other, ih rest_sorted, List.lookup_cons,
          beq_false_of_ne same]

theorem eq_of_lookup [Std.Irrefl (α := κ) (· < ·)] [Std.Trichotomous (α := κ) (· < ·)]
    [Trans (α := κ) (· < ·) (· < ·) (· < ·)] {others : List (κ × β)} (sorted : Increasing entries)
    (other_sorted : Increasing others) (same : ∀ key, entries.lookup key = others.lookup key) :
    entries = others := by
  induction entries generalizing others with
  | nil =>
      cases others with
      | nil => rfl
      | cons entry others =>
          have found : none = some entry.2 := (same entry.1).trans List.lookup_cons_self
          cases found
  | cons entry entries ih =>
      cases others with
      | nil =>
          have found : some entry.2 = none := List.lookup_cons_self.symm.trans (same entry.1)
          cases found
      | cons other others =>
          obtain ⟨first, rest⟩ := List.pairwise_cons.mp sorted
          obtain ⟨first_other, rest_other⟩ := List.pairwise_cons.mp other_sorted
          obtain ⟨here, value⟩ := entry
          obtain ⟨there, content⟩ := other
          have absent : ∀ {key : κ} {head : κ × β} {tail : List (κ × β)}, key < head.1 →
              (∀ entry ∈ tail, head.1 < entry.1) → (head :: tail).lookup key = none :=
            fun less above => lookup_of_below (List.forall_mem_cons.mpr
              ⟨less, fun entry member => Std.lt_trans less (above entry member)⟩)
          have equal : here = there := by
            rcases Std.lt_trichotomy here there with less | equal | more
            · have found := same here
              rw [absent less first_other, List.lookup_cons_self] at found
              cases found
            · exact equal
            · have found := same there
              rw [absent more first, List.lookup_cons_self] at found
              cases found
          subst equal
          have values := same here
          rw [List.lookup_cons_self, List.lookup_cons_self] at values
          cases values
          have tails : entries = others := by
            refine ih rest rest_other fun key => ?_
            by_cases head : key = here
            · rw [head, lookup_of_below first, lookup_of_below first_other]
            · have found := same key
              rwa [List.lookup_cons, List.lookup_cons, beq_false_of_ne head] at found
          rw [tails]

end Lookup

section Alter

variable [DecidableLT κ] [DecidableEq κ] {key : κ} {f : Option β → β} {entries : List (κ × β)}

theorem alter_ne_nil (key : κ) (f : Option β → β) (entries : List (κ × β)) :
    alter key f entries ≠ [] := by
  cases entries with
  | nil => exact nofun
  | cons entry rest =>
      rw [alter]
      split
      · exact nofun
      · split
        · exact nofun
        · exact nofun

theorem key_of_mem_alter {entry : κ × β} (member : entry ∈ alter key f entries) :
    entry.1 = key ∨ ∃ old ∈ entries, entry.1 = old.1 := by
  induction entries with
  | nil =>
      rw [alter, List.mem_singleton] at member
      exact .inl (congrArg Prod.fst member)
  | cons first rest ih =>
      rw [alter] at member
      split at member
      · rcases List.mem_cons.mp member with rfl | old
        · exact .inl rfl
        · exact .inr ⟨entry, old, rfl⟩
      · split at member
        · rcases List.mem_cons.mp member with rfl | old
          · exact .inl rfl
          · exact .inr ⟨entry, List.mem_cons_of_mem _ old, rfl⟩
        · rcases List.mem_cons.mp member with rfl | later
          · exact .inr ⟨_, List.mem_cons_self, rfl⟩
          · rcases ih later with same | ⟨old, place, same⟩
            · exact .inl same
            · exact .inr ⟨old, List.mem_cons_of_mem _ place, same⟩

variable [Std.Trichotomous (α := κ) (· < ·)] [Trans (α := κ) (· < ·) (· < ·) (· < ·)]

theorem increasing_alter (sorted : Increasing entries) (key : κ) (f : Option β → β) :
    Increasing (alter key f entries) := by
  induction entries with
  | nil => exact List.pairwise_singleton _ _
  | cons entry rest ih =>
      obtain ⟨first, rest_sorted⟩ := List.pairwise_cons.mp sorted
      rw [alter]
      split
      · next less =>
          refine .cons ?_ sorted
          intro old member
          rcases List.mem_cons.mp member with rfl | later
          · exact less
          · exact Std.lt_trans less (first old later)
      · next notLess =>
          split
          · next same =>
              subst same
              exact .cons first rest_sorted
          · next different =>
              refine .cons ?_ (ih rest_sorted)
              intro new member
              rcases key_of_mem_alter member with same | ⟨old, place, same⟩
              · rcases Std.lt_trichotomy entry.1 key with less | equal | more
                · exact same ▸ less
                · exact absurd equal.symm different
                · exact absurd more notLess
              · exact same ▸ first old place

variable [Std.Irrefl (α := κ) (· < ·)] [BEq κ] [LawfulBEq κ]

omit [Std.Trichotomous (α := κ) (· < ·)] in
theorem lookup_alter_self (sorted : Increasing entries) (key : κ) (f : Option β → β) :
    (alter key f entries).lookup key = some (f (entries.lookup key)) := by
  induction entries with
  | nil => exact List.lookup_cons_self
  | cons entry rest ih =>
      obtain ⟨first, rest_sorted⟩ := List.pairwise_cons.mp sorted
      rw [alter]
      split
      · next less =>
          have below : ∀ old ∈ entry :: rest, key < old.1 := by
            intro old member
            rcases List.mem_cons.mp member with rfl | later
            · exact less
            · exact Std.lt_trans less (first old later)
          rw [List.lookup_cons_self, lookup_of_below below]
      · split
        · next same =>
            subst same
            rw [List.lookup_cons_self, List.lookup_cons_self]
        · next different =>
            rw [List.lookup_cons, beq_false_of_ne different, List.lookup_cons,
              beq_false_of_ne different]
            exact ih rest_sorted

omit [Std.Trichotomous (α := κ) (· < ·)] [Trans (α := κ) (· < ·) (· < ·) (· < ·)]
  [Std.Irrefl (α := κ) (· < ·)] in
theorem lookup_alter_of_ne {other : κ} (different : other ≠ key) (f : Option β → β)
    (entries : List (κ × β)) :
    (alter key f entries).lookup other = entries.lookup other := by
  induction entries with
  | nil => rw [alter, List.lookup_cons, beq_false_of_ne different]
  | cons entry rest ih =>
      rw [alter]
      split
      · rw [List.lookup_cons, beq_false_of_ne different]
      · split
        · next same =>
            subst same
            rw [List.lookup_cons, beq_false_of_ne different, List.lookup_cons,
              beq_false_of_ne different]
        · rw [List.lookup_cons, List.lookup_cons, ih]

theorem alter_comm {other : κ} (sorted : Increasing entries) (different : other ≠ key)
    (f g : Option β → β) :
    alter key f (alter other g entries) = alter other g (alter key f entries) := by
  have before := increasing_alter sorted key f
  have before_other := increasing_alter sorted other g
  refine eq_of_lookup (increasing_alter before_other key f) (increasing_alter before other g) ?_
  intro place
  by_cases here : place = key
  · subst here
    rw [lookup_alter_self before_other, lookup_alter_of_ne (Ne.symm different),
      lookup_alter_of_ne (Ne.symm different), lookup_alter_self sorted]
  · by_cases there : place = other
    · subst there
      rw [lookup_alter_of_ne here, lookup_alter_self sorted, lookup_alter_self before,
        lookup_alter_of_ne here]
    · rw [lookup_alter_of_ne here, lookup_alter_of_ne there, lookup_alter_of_ne there,
        lookup_alter_of_ne here]

theorem alter_alter (sorted : Increasing entries) (key : κ) (f g : Option β → β) :
    alter key f (alter key g entries) = alter key (fun value => f (some (g value))) entries := by
  have before := increasing_alter sorted key g
  refine eq_of_lookup (increasing_alter before key f) (increasing_alter sorted key _) ?_
  intro place
  by_cases here : place = key
  · subst here
    rw [lookup_alter_self before, lookup_alter_self sorted, lookup_alter_self sorted]
  · rw [lookup_alter_of_ne here, lookup_alter_of_ne here, lookup_alter_of_ne here]

/-- Of a change only its effect on the value that is there matters. -/
theorem alter_congr (sorted : Increasing entries) {f g : Option β → β}
    (same : f (entries.lookup key) = g (entries.lookup key)) :
    alter key f entries = alter key g entries := by
  refine eq_of_lookup (increasing_alter sorted key f) (increasing_alter sorted key g) ?_
  intro place
  by_cases here : place = key
  · subst here
    rw [lookup_alter_self sorted, lookup_alter_self sorted, same]
  · rw [lookup_alter_of_ne here, lookup_alter_of_ne here]

end Alter

end TupleWire.Sorted
