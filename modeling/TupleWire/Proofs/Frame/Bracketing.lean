import TupleWire.Frame.Program

/-! Programs that fill the length words they reserve, the word reserved last first. Such a
program spells a tree of frames, and only that one. -/
namespace TupleWire

/-- What a program writes: bytes, padding up to a multiple, and frames around such contents. -/
inductive Content where
  | nil
  | bytes (data : Bytes) (rest : Content)
  | padding (n : Nat) (rest : Content)
  | frame (form : LengthForm) (inner rest : Content)
  deriving DecidableEq

/-- The writes that spell a content inside the frames whose words are `opened`, innermost first.
A word is not reserved under the name of one of these, and it is filled behind the whole inner
content of its frame. -/
inductive Spells : List String → List Op → Content → Prop
  | nil (opened : List String) : Spells opened [] .nil
  | put {opened : List String} {ops : List Op} {rest : Content} (data : Bytes)
      (others : Spells opened ops rest) : Spells opened (.put data :: ops) (.bytes data rest)
  | putWord {opened : List String} {ops : List Op} {rest : Content} (w : Word)
      (others : Spells opened ops rest) : Spells opened (.putWord w :: ops) (.bytes w.toBytes rest)
  | align {opened : List String} {ops : List Op} {rest : Content} (n : Nat)
      (others : Spells opened ops rest) : Spells opened (.align n :: ops) (.padding n rest)
  | frame {opened : List String} {body ops : List Op} {name : String} {inner rest : Content}
      (form : LengthForm) (fresh : name ∉ opened) (within : Spells (name :: opened) body inner)
      (others : Spells opened ops rest) :
      Spells opened (.reserve name :: body ++ .finish name form :: ops) (.frame form inner rest)

/-- The words that are open behind a write, given those before it. Only the innermost one may be
filled, and none is reserved under the name of an open one. -/
def Op.bracket? (opened : List String) : Op → Option (List String)
  | .put _ | .putWord _ | .align _ => some opened
  | .reserve name => if name ∈ opened then none else some (name :: opened)
  | .finish name _ =>
      match opened with
      | [] => none
      | last :: others => if name = last then some others else none
  | _ => none

/-- Every word that is reserved is filled again, the one reserved last first, and nothing else is
filled. -/
def WellBracketed (ops : List Op) : Prop := ops.foldlM Op.bracket? [] = some []

instance (ops : List Op) : Decidable (WellBracketed ops) :=
  inferInstanceAs (Decidable (ops.foldlM Op.bracket? [] = some []))

namespace Spells

variable {opened : List String} {ops : List Op} {content : Content}

theorem walk (spelled : Spells opened ops content) :
    ops.foldlM Op.bracket? opened = some opened := by
  induction spelled with
  | nil opened => rfl
  | put data others ih => exact ih
  | putWord w others ih => exact ih
  | align n others ih => exact ih
  | frame form fresh within others ihWithin ihOthers =>
      simp only [List.cons_append, List.foldlM_cons, List.foldlM_append, Op.bracket?, if_neg fresh,
        Option.bind_eq_bind, Option.bind_some, ihWithin, if_true, ihOthers]

/-- A content ends where a word is filled that was open before it: it is read in one way only. -/
theorem unique {ops' tail tail' : List Op} {content' : Content} {name name' : String}
    {form form' : LengthForm} (first : Spells opened ops content)
    (second : Spells opened ops' content')
    (same : ops ++ .finish name form :: tail = ops' ++ .finish name' form' :: tail') :
    content = content' ∧ form = form' ∧ tail = tail' := by
  induction first generalizing ops' content' name name' form form' tail tail' with
  | nil opened =>
      cases second with
      | nil => simp_all
      | _ => cases same
  | put data others ih =>
      cases second with
      | put data' others' =>
          simp only [List.cons_append, List.cons.injEq, Op.put.injEq] at same
          obtain ⟨rfl, same⟩ := same
          obtain ⟨rfl, ends⟩ := ih others' same
          exact ⟨rfl, ends⟩
      | _ => cases same
  | putWord w others ih =>
      cases second with
      | putWord w' others' =>
          simp only [List.cons_append, List.cons.injEq, Op.putWord.injEq] at same
          obtain ⟨rfl, same⟩ := same
          obtain ⟨rfl, ends⟩ := ih others' same
          exact ⟨rfl, ends⟩
      | _ => cases same
  | align n others ih =>
      cases second with
      | align n' others' =>
          simp only [List.cons_append, List.cons.injEq, Op.align.injEq] at same
          obtain ⟨rfl, same⟩ := same
          obtain ⟨rfl, ends⟩ := ih others' same
          exact ⟨rfl, ends⟩
      | _ => cases same
  | frame form fresh within others ihWithin ihOthers =>
      cases second with
      | frame form' fresh' within' others' =>
          simp only [List.cons_append, List.append_assoc, List.cons.injEq, Op.reserve.injEq] at same
          obtain ⟨rfl, same⟩ := same
          obtain ⟨rfl, rfl, behind⟩ := ihWithin within' same
          obtain ⟨rfl, ends⟩ := ihOthers others' behind
          exact ⟨rfl, ends⟩
      | _ => cases same

end Spells

/-- A walk that leaves no more words open than it found: it spells a content, or it does so up to
where it fills the innermost word that it found open. -/
inductive Spelled : List String → List Op → List String → Prop
  | whole {opened : List String} {ops : List Op} {content : Content}
      (spelled : Spells opened ops content) : Spelled opened ops opened
  | closes {name : String} {opened left : List String} {body rest : List Op} {inner : Content}
      (form : LengthForm) (spelled : Spells (name :: opened) body inner)
      (walk : rest.foldlM Op.bracket? opened = some left) :
      Spelled (name :: opened) (body ++ .finish name form :: rest) left

namespace Spelled

variable {opened left : List String} {ops : List Op}

theorem behind (spelled : Spelled opened ops left) (front : List Op)
    (extend : ∀ {ops content}, Spells opened ops content →
      ∃ longer, Spells opened (front ++ ops) longer) :
    Spelled opened (front ++ ops) left := by
  cases spelled with
  | whole spelled => exact .whole (extend spelled).choose_spec
  | closes form spelled walk =>
      rw [← List.append_assoc]
      exact .closes form (extend spelled).choose_spec walk

theorem of_walk (walk : ops.foldlM Op.bracket? opened = some left)
    (short : left.length ≤ opened.length) : Spelled opened ops left := by
  -- A frame is read in two parts, its content and what follows it, and both are shorter.
  induction size : ops.length using Nat.strongRecOn generalizing ops opened left with
  | _ size ih =>
    subst size
    cases ops with
    | nil =>
        cases walk
        exact .whole (.nil opened)
    | cons op ops =>
        rw [List.foldlM_cons, Option.bind_eq_bind, Option.bind_eq_some_iff] at walk
        obtain ⟨next, step, walk⟩ := walk
        have later := @ih ops.length (Nat.lt_succ_self _)
        cases op with
        | put data =>
            cases step
            exact (later walk short rfl).behind [_] fun rest => ⟨_, .put data rest⟩
        | putWord w =>
            cases step
            exact (later walk short rfl).behind [_] fun rest => ⟨_, .putWord w rest⟩
        | align n =>
            cases step
            exact (later walk short rfl).behind [_] fun rest => ⟨_, .align n rest⟩
        | finish name form =>
            cases opened with
            | nil => cases step
            | cons last others =>
                simp only [Op.bracket?, Option.ite_none_right_eq_some, Option.some.injEq] at step
                obtain ⟨rfl, rfl⟩ := step
                exact .closes form (.nil _) walk
        | reserve name =>
            simp only [Op.bracket?, Option.ite_none_left_eq_some, Option.some.injEq] at step
            obtain ⟨fresh, rfl⟩ := step
            have inside := later walk (Nat.le_succ_of_le short) rfl
            cases inside with
            | whole spelled => exact absurd short (Nat.not_succ_le_self _)
            | @closes _ _ _ body rest inner form spelled walk =>
                have behind : rest.length <
                    (Op.reserve name :: (body ++ .finish name form :: rest)).length := by
                  simp only [List.length_cons, List.length_append]
                  omega
                have others := ih _ behind walk short rfl
                have whole := others.behind (.reserve name :: body ++ [.finish name form])
                  fun {ops content} spelledRest => ⟨.frame form inner content, by
                    simpa using Spells.frame form fresh spelled spelledRest⟩
                simpa using whole
        | _ => cases step

end Spelled

/-- A program is well bracketed exactly if it spells a content, and then it spells no other. -/
theorem wellBracketed_iff {ops : List Op} :
    WellBracketed ops ↔ ∃ content, ∀ other, Spells [] ops other ↔ other = content := by
  constructor
  · intro walk
    cases Spelled.of_walk walk (Nat.le_refl _) with
    | @whole _ _ content spelled =>
        refine ⟨content, fun other => ⟨fun again => ?_, fun same => same ▸ spelled⟩⟩
        have closed : ops ++ [.finish "" .raw] = ops ++ [.finish "" .raw] := rfl
        exact (again.unique spelled closed).1
  · rintro ⟨content, only⟩
    exact ((only content).mpr rfl).walk

end TupleWire
