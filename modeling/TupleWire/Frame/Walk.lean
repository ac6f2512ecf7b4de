import TupleWire.Fault

/-! Walks over the column frames of a row, up to the zero word that ends it. -/
namespace TupleWire

/-- What a column frame carries besides its length word; none for a NULL column. -/
abbrev Payload := Option Bytes

/-- A walk in progress: the bytes not yet read, their position, and whether the walk is
over. It is over once it has met the zero word or failed. -/
structure Walk where
  rest : Bytes
  pos : Nat
  done : Bool := false
  deriving DecidableEq, Repr

namespace Walk

def start (bytes : Bytes) (pos : Nat) : Walk := { rest := bytes.drop pos, pos }

/-- Reads one column frame; none at the zero word. A payload that is too short for a
value frame can only be padding. -/
def step (walk : Walk) : Except Error (Option (Payload × Walk)) :=
  match takeWord? walk.rest with
  | none => .error (.corruptAt .terminatorMissing walk.pos)
  | some (w, body) =>
      match w.length? with
      | none => .error (.corruptAt .terminatorMissing walk.pos)
      | some size =>
          if size = 0 then .ok none
          else if size < wordSize then .error (.corruptAt .columnTooShort walk.pos)
          else
            match takeBytes? (size - wordSize) body with
            | none => .error (.corruptAt .columnOverrun walk.pos)
            | some (payload, rest) =>
                let next := { walk with rest, pos := walk.pos + size }
                if wordSize ≤ payload.length then .ok (some (some payload, next))
                else if payload.any (· ≠ 0) then .error (.corruptAt .columnPaddingDirty walk.pos)
                else .ok (some (none, next))

/-- The next frame or failure; none once the walk is over. -/
def next (walk : Walk) : Option (Except Error Payload) × Walk :=
  if walk.done then (none, walk)
  else
    match walk.step with
    | .ok (some (payload, next)) => (some (.ok payload), next)
    | .ok none => (none, { walk with done := true })
    | .error e => (some (.error e), { walk with done := true })

/-- Bounds the calls of `next` until the walk is over. -/
def measure (walk : Walk) : Nat := if walk.done then 0 else walk.rest.length + 1

theorem step_rest_lt {walk next : Walk} {payload : Payload}
    (h : walk.step = .ok (some (payload, next))) :
    next.rest.length < walk.rest.length ∧ next.done = walk.done := by
  unfold step at h
  split at h
  · cases h
  · next w body word =>
      have shorter := congrArg List.length (takeWord?_eq_some_iff.mp word)
      split at h
      · cases h
      · split at h
        · cases h
        · split at h
          · cases h
          · split at h
            · cases h
            · next payload rest taken =>
                have kept := congrArg List.length (takeBytes?_eq_some_iff.mp taken).1
                simp only [List.length_append, Word.length_toBytes, wordSize] at shorter kept
                split at h
                · cases h
                  exact ⟨by simp only; omega, rfl⟩
                · split at h
                  · cases h
                  · cases h
                    exact ⟨by simp only; omega, rfl⟩

theorem measure_next_lt {walk next : Walk} {item : Except Error Payload}
    (h : walk.next = (some item, next)) : next.measure < walk.measure := by
  unfold Walk.next at h
  split at h
  · cases h
  · next running =>
      split at h
      · next payload following stepped =>
          obtain ⟨lt, same⟩ := step_rest_lt stepped
          cases h
          simp only [measure, same, running]
          simpa using lt
      · cases h
      · cases h
        simp [measure, running]

/-- Everything that `next` gives until the walk is over, and the walk then. -/
def drain (walk : Walk) : List (Except Error Payload) × Walk :=
  match _h : walk.next with
  | (none, last) => ([], last)
  | (some item, next) =>
      let (items, last) := next.drain
      (item :: items, last)
termination_by walk.measure
decreasing_by exact measure_next_lt (by assumption)

end Walk

end TupleWire
