import TupleWire.Proofs.Store.Sorted

/-! The place of a key in a list in order, found by halving. A value that is stored at the place
so found is stored where a walk through the list would have stored it. -/
namespace TupleWire.Sorted

variable {κ β : Type} [LT κ]

/-- The position at which a key stands, or else the one to insert it at. -/
inductive Finds (key : κ) : List (κ × β) → Except Nat Nat → Prop
  | here (front : List (κ × β)) (value : β) (back : List (κ × β)) :
      Finds key (front ++ (key, value) :: back) (.ok front.length)
  | between (front back : List (κ × β)) (below : ∀ entry ∈ front, entry.1 < key)
      (above : ∀ entry ∈ back, key < entry.1) : Finds key (front ++ back) (.error front.length)

/-- Puts a value over the one at a position, or in between. -/
def fileAt (key : κ) (value : β) (entries : List (κ × β)) : Except Nat Nat → List (κ × β)
  | .ok i => entries.set i (key, value)
  | .error i => entries.insertIdx i (key, value)

namespace Finds

variable {key : κ} {front back : List (κ × β)} {place : Except Nat Nat}

theorem before (found : Finds key front place) (above : ∀ entry ∈ back, key < entry.1) :
    Finds key (front ++ back) place := by
  cases found with
  | here front value rest =>
      rw [List.append_assoc, List.cons_append]
      exact .here front value (rest ++ back)
  | between front rest below aboveRest =>
      rw [List.append_assoc]
      refine .between front (rest ++ back) below fun entry member => ?_
      rcases List.mem_append.mp member with first | later
      · exact aboveRest entry first
      · exact above entry later

/-- Positions are counted from the front. -/
def shift (n : Nat) : Except Nat Nat → Except Nat Nat
  | .ok i => .ok (n + i)
  | .error i => .error (n + i)

theorem behind (found : Finds key back place) (front : List (κ × β))
    (below : ∀ entry ∈ front, entry.1 < key) :
    Finds key (front ++ back) (shift front.length place) := by
  cases found with
  | here rest value back =>
      rw [← List.append_assoc, shift, ← List.length_append]
      exact .here (front ++ rest) value back
  | between rest back belowRest above =>
      rw [← List.append_assoc, shift, ← List.length_append]
      refine .between (front ++ rest) back (fun entry member => ?_) above
      rcases List.mem_append.mp member with first | later
      · exact below entry first
      · exact belowRest entry later

end Finds

variable [DecidableLT κ] [DecidableEq κ]

/-- Looks into the half where the key has to be. -/
def search (key : κ) (entries : List (κ × β)) : Except Nat Nat :=
  match _h : entries.drop (entries.length / 2) with
  | [] => .error 0
  | middle :: back =>
      if key < middle.1 then search key (entries.take (entries.length / 2))
      else if key = middle.1 then .ok (entries.length / 2)
      else Finds.shift (entries.length / 2 + 1) (search key back)
termination_by entries.length
decreasing_by
  all_goals
    have sizes := congrArg List.length _h
    simp only [List.length_drop, List.length_take, List.length_cons] at sizes ⊢
    omega

def file (key : κ) (value : β) (entries : List (κ × β)) : List (κ × β) :=
  fileAt key value entries (search key entries)

variable [Std.Irrefl (α := κ) (· < ·)] [Std.Trichotomous (α := κ) (· < ·)]
  [Trans (α := κ) (· < ·) (· < ·) (· < ·)] {key : κ} {entries : List (κ × β)}

omit [Std.Irrefl (α := κ) (· < ·)] in
theorem finds_search (sorted : Increasing entries) (key : κ) :
    Finds key entries (search key entries) := by
  induction size : entries.length using Nat.strongRecOn generalizing entries with
  | _ size ih =>
    subst size
    rw [search]
    have whole := List.take_append_drop (entries.length / 2) entries
    split
    · next rest =>
        rw [rest, List.append_nil] at whole
        have none_left : entries = [] := by
          rw [List.drop_eq_nil_iff] at rest
          exact List.length_eq_zero_iff.mp (by omega)
        rw [none_left]
        exact .between [] [] nofun nofun
    · next middle back rest =>
        have sizes := congrArg List.length rest
        simp only [List.length_drop, List.length_cons] at sizes
        have half : (entries.take (entries.length / 2)).length = entries.length / 2 := by
          rw [List.length_take]
          omega
        rw [rest] at whole
        generalize entries.take (entries.length / 2) = front at whole half
        rw [← half, ← whole]
        rw [← whole] at sorted
        obtain ⟨sorted_front, sorted_back, across⟩ := List.pairwise_append.mp sorted
        obtain ⟨first, sorted_rest⟩ := List.pairwise_cons.mp sorted_back
        obtain ⟨here, value⟩ := middle
        split
        · next less =>
            refine (ih _ (by omega) sorted_front rfl).before (List.forall_mem_cons.mpr ⟨less, ?_⟩)
            exact fun entry member => Std.lt_trans less (first entry member)
        · next notLess =>
            split
            · next same =>
                subst same
                exact .here front value back
            · next different =>
                have more : here < key := by
                  rcases Std.lt_trichotomy here key with less | equal | more
                  · exact less
                  · exact absurd equal.symm different
                  · exact absurd more notLess
                have found := (ih _ (by omega) sorted_rest rfl).behind (front ++ [(here, value)])
                  (fun entry member => by
                    rcases List.mem_append.mp member with early | last
                    · exact Std.lt_trans (across entry early _ List.mem_cons_self) more
                    · rw [List.mem_singleton.mp last]
                      exact more)
                rwa [List.append_assoc, List.singleton_append, List.length_append,
                  List.length_singleton] at found

omit [Std.Trichotomous (α := κ) (· < ·)] in
theorem alter_behind {front : List (κ × β)} (below : ∀ entry ∈ front, entry.1 < key)
    (f : Option β → β) (back : List (κ × β)) :
    alter key f (front ++ back) = front ++ alter key f back := by
  induction front with
  | nil => rfl
  | cons entry front ih =>
      obtain ⟨less, others⟩ := List.forall_mem_cons.mp below
      have notLess : ¬ key < entry.1 := fun more =>
        Std.Irrefl.irrefl _ (Std.lt_trans less more)
      have different : key ≠ entry.1 := fun same => Std.Irrefl.irrefl _ (same ▸ less)
      rw [List.cons_append, alter, if_neg notLess, if_neg different, ih others, List.cons_append]

omit [Std.Trichotomous (α := κ) (· < ·)] in
/-- Wherever the key has its place, to store a value there is to set it. -/
theorem fileAt_eq_alter (sorted : Increasing entries) {place : Except Nat Nat}
    (found : Finds key entries place) (value : β) :
    fileAt key value entries place = alter key (fun _ => value) entries := by
  cases found with
  | here front old back =>
      have below : ∀ entry ∈ front, entry.1 < key := fun entry member =>
        (List.pairwise_append.mp sorted).2.2 entry member _ List.mem_cons_self
      rw [alter_behind below, fileAt, List.set_append_right _ _ (Nat.le_refl _), Nat.sub_self,
        alter, if_neg (Std.Irrefl.irrefl key), if_pos rfl, List.set_cons_zero]
  | between front back below above =>
      rw [alter_behind below, fileAt]
      have placed : (front ++ back).insertIdx front.length (key, value) =
          front ++ (key, value) :: back :=
        List.modifyTailIdx_add (List.cons (key, value)) 0 front back
      simp only [placed]
      cases back with
      | nil => rfl
      | cons entry back => rw [alter, if_pos (above entry List.mem_cons_self)]

theorem file_eq_alter (sorted : Increasing entries) (key : κ) (value : β) :
    file key value entries = alter key (fun _ => value) entries :=
  fileAt_eq_alter sorted (finds_search sorted key) value

end TupleWire.Sorted
