import TupleWire.Proofs.Frame.Corrupting

/-! Reading on a machine. Positions are 64-bit numbers, and bytes are cut out of the whole by
index. A sum that is too large and an index that lies outside stop the machine, unless the
program asks beforehand. Reading on the machine follows a reader of the library if it is never
stopped and comes to the same result. -/
namespace TupleWire

theorem takeWord?_eq_none_iff {bytes : Bytes} :
    takeWord? bytes = none ↔ bytes.length < wordSize := by
  match bytes with
  | [] | [_] | [_, _] | [_, _, _] => simp [takeWord?, wordSize]
  | _ :: _ :: _ :: _ :: _ => simp [takeWord?, wordSize]

namespace Machine

/-- Positions are below this number. -/
def positions : Nat := 0x10000000000000000

/-- What stops the machine. -/
inductive Trap where
  | overflow
  | outOfRange
  deriving DecidableEq, Repr

/-- Why there is no result: the program has refused the bytes, or the machine has stopped. -/
inductive Halt where
  | refused (e : Error)
  | trapped (trap : Trap)
  deriving DecidableEq, Repr

abbrev Reading := Except Halt

variable {α β γ δ : Type}

def refuse (corruption : Corruption) (pos : Nat) : Reading α :=
  .error (.refused (.corruptAt corruption pos))

def trap (trap : Trap) : Reading α := .error (.trapped trap)

def add (a b : Nat) : Reading Nat := if a + b < positions then .ok (a + b) else trap .overflow

def mul (a b : Nat) : Reading Nat := if a * b < positions then .ok (a * b) else trap .overflow

/-- The product, if it is a position. -/
def mul? (a b : Nat) : Option Nat := if a * b < positions then some (a * b) else none

/-- The sum, if it is a position and not beyond `limit`. -/
def addWithin? (a b limit : Nat) : Option Nat :=
  if a + b < positions ∧ a + b ≤ limit then some (a + b) else none

def slice (bytes : Bytes) (start stop : Nat) : Reading Bytes :=
  if start ≤ stop ∧ stop ≤ bytes.length then .ok ((bytes.drop start).take (stop - start))
  else trap .outOfRange

/-- A word is made of exactly four bytes. -/
def wordOf : Bytes → Reading Word
  | [a, b, c, d] => .ok (.ofBytes a b c d)
  | _ => trap .outOfRange

/-- The word at a position, if it lies inside. -/
def word? (bytes : Bytes) (pos : Nat) : Reading (Option Word) :=
  match addWithin? pos wordSize bytes.length with
  | none => .ok none
  | some stop => do
      let cut ← slice bytes pos stop
      let w ← wordOf cut
      return some w

/-- The length in the word at a position; if there is none, that is told in the given way. -/
def length (bytes : Bytes) (pos : Nat) (corruption : Corruption) : Reading Nat := do
  match (← word? bytes pos).bind Word.length? with
  | none => refuse corruption pos
  | some size => return size

/-- The reading is not stopped by the machine: it is refused as the reader refuses, or both
give results that are related. -/
inductive Follows (R : α → β → Prop) : Reading α → Except Error β → Prop
  | ok {a : α} {b : β} (related : R a b) : Follows R (.ok a) (.ok b)
  | refused (e : Error) : Follows R (.error (.refused e)) (.error e)

namespace Follows

variable {R : α → β → Prop} {S : γ → δ → Prop}

theorem bind {reading : Reading α} {r : Except Error β} {f : α → Reading γ} {g : β → Except Error δ}
    (first : Follows R reading r) (second : ∀ a b, R a b → Follows S (f a) (g b)) :
    Follows S (reading >>= f) (r >>= g) := by
  cases first with
  | ok related => exact second _ _ related
  | refused e => exact .refused e

theorem eq {reading : Reading α} {r : Except Error α} (h : Follows Eq reading r) :
    reading = r.mapError .refused := by
  cases h with
  | ok related =>
      subst related
      rfl
  | refused e => rfl

end Follows

theorem add_of_le {a b limit : Nat} (fits : limit < positions) (within : a + b ≤ limit) :
    add a b = .ok (a + b) := by
  rw [add, if_pos (by omega)]

theorem mul_of_le {a b limit : Nat} (fits : limit < positions) (within : a * b ≤ limit) :
    mul a b = .ok (a * b) := by
  rw [mul, if_pos (by omega)]

theorem addWithin?_eq_some_iff {a b limit sum : Nat} :
    addWithin? a b limit = some sum ↔ sum = a + b ∧ sum < positions ∧ sum ≤ limit := by
  rw [addWithin?]
  split
  · next within =>
      rw [Option.some.injEq]
      constructor
      · rintro rfl
        exact ⟨rfl, within⟩
      · rintro ⟨rfl, -⟩
        rfl
  · next beyond =>
      refine iff_of_false (fun h => ?_) ?_
      · cases h
      · rintro ⟨rfl, within⟩
        exact beyond within

theorem addWithin?_of_le {a b limit : Nat} (fits : limit < positions) (within : a + b ≤ limit) :
    addWithin? a b limit = some (a + b) := by
  rw [addWithin?, if_pos ⟨by omega, within⟩]

theorem addWithin?_of_lt {a b limit : Nat} (beyond : limit < a + b) :
    addWithin? a b limit = none := by
  rw [addWithin?, if_neg (by omega)]

theorem slice_of_le {bytes : Bytes} {start stop : Nat} (order : start ≤ stop)
    (within : stop ≤ bytes.length) :
    slice bytes start stop = .ok ((bytes.drop start).take (stop - start)) := by
  rw [slice, if_pos ⟨order, within⟩]

theorem length_of_slice {bytes part : Bytes} {start stop : Nat}
    (h : slice bytes start stop = .ok part) : part.length ≤ bytes.length := by
  rw [slice] at h
  split at h
  · cases h
    rw [List.length_take, List.length_drop]
    omega
  · cases h

theorem wordOf_toBytes (w : Word) : wordOf w.toBytes = .ok w :=
  congrArg Except.ok (Word.ofBytes_toBytes w)

/-- Reading a word never stops the machine, wherever the position is. -/
theorem word?_eq {bytes : Bytes} (fits : bytes.length < positions) (pos : Nat) :
    word? bytes pos = .ok (wordAt? bytes pos) := by
  rcases word : takeWord? (bytes.drop pos) with _ | ⟨w, rest⟩
  · have short := takeWord?_eq_none_iff.mp word
    have beyond : bytes.length < pos + wordSize := by
      rw [List.length_drop] at short
      omega
    rw [word?, addWithin?_of_lt beyond, wordAt?, word]
    rfl
  · have front := takeWord?_eq_some_iff.mp word
    have within : pos + wordSize ≤ bytes.length := by
      have size := congrArg List.length front
      rw [List.length_drop, List.length_append, Word.length_toBytes] at size
      simp only [wordSize] at size ⊢
      omega
    have cut : (w.toBytes ++ rest).take w.toBytes.length = w.toBytes := List.take_left
    rw [Word.length_toBytes] at cut
    rw [word?, addWithin?_of_le fits within, wordAt?, word]
    simp only
    rw [slice_of_le (Nat.le_add_right _ _) within, Nat.add_sub_cancel_left, front, cut, ok_bind,
      wordOf_toBytes]
    rfl

theorem length_eq {bytes : Bytes} (fits : bytes.length < positions) (pos : Nat)
    (corruption : Corruption) :
    length bytes pos corruption =
      match (wordAt? bytes pos).bind Word.length? with
      | none => refuse corruption pos
      | some size => .ok size := by
  rw [length, word?_eq fits]
  rfl

end Machine

end TupleWire
