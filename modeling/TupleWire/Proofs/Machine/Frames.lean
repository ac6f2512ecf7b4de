import TupleWire.Proofs.Frame.Grammar
import TupleWire.Proofs.Machine.Reading

/-! Row frames read on the machine. A walk keeps the whole byte string and a position in it;
what a walk of the library has still to read is what lies behind that position. -/
namespace TupleWire

theorem takeBytes?_of_le {n : Nat} {bytes : Bytes} (present : n ≤ bytes.length) :
    takeBytes? n bytes = some (bytes.take n, bytes.drop n) := by
  rw [takeBytes?_eq_some_iff]
  exact ⟨(List.take_append_drop n bytes).symm, List.length_take_of_le present⟩

theorem takeBytes?_of_lt {n : Nat} {bytes : Bytes} (missing : bytes.length < n) :
    takeBytes? n bytes = none := by
  rw [takeBytes?, List.splitAt_eq]
  simp only
  rw [if_neg (by rw [List.length_take]; omega)]

theorem takeWord?_drop {bytes body : Bytes} {pos : Nat} {w : Word}
    (h : takeWord? (bytes.drop pos) = some (w, body)) :
    body = bytes.drop (pos + wordSize) ∧ pos + wordSize ≤ bytes.length := by
  have front := takeWord?_eq_some_iff.mp h
  have size := congrArg List.length front
  rw [List.length_drop, List.length_append, Word.length_toBytes] at size
  rw [← List.drop_drop, front]
  exact ⟨rfl, by simp only [wordSize] at size ⊢; omega⟩

theorem Walk.drain_eq (walk : Walk) :
    walk.drain =
      match walk.next with
      | (none, last) => ([], last)
      | (some item, next) => (item :: next.drain.1, next.drain.2) := by
  rw [drain]
  rcases walk.next with ⟨_ | _, _⟩ <;> rfl

namespace Machine

/-- A walk in progress: the whole byte string, a position, and whether the walk is over. -/
structure Walk where
  bytes : Bytes
  pos : Nat
  done : Bool := false
  deriving DecidableEq, Repr

namespace Walk

/-- The walk of the library that has the same to read. -/
def view (walk : Walk) : TupleWire.Walk := ⟨walk.bytes.drop walk.pos, walk.pos, walk.done⟩

def step (walk : Walk) : Reading (Option (Payload × Walk)) := do
  let size ← length walk.bytes walk.pos .terminatorMissing
  if size = 0 then return none
  else if size < wordSize then refuse .columnTooShort walk.pos
  else
    match addWithin? walk.pos size walk.bytes.length with
    | none => refuse .columnOverrun walk.pos
    | some stop => do
        let start ← add walk.pos wordSize
        let payload ← slice walk.bytes start stop
        let next := { walk with pos := stop }
        if wordSize ≤ payload.length then return some (some payload, next)
        else if payload.any (· ≠ 0) then refuse .columnPaddingDirty walk.pos
        else return some (none, next)

def next (walk : Walk) : Reading (Option (Except Error Payload) × Walk) :=
  if walk.done then .ok (none, walk)
  else
    match walk.step with
    | .ok (some (payload, next)) => .ok (some (.ok payload), next)
    | .ok none => .ok (none, { walk with done := true })
    | .error (.refused e) => .ok (some (.error e), { walk with done := true })
    | .error (.trapped stop) => trap stop

def nexts : (n : Nat) → Walk → Reading (List (Option (Except Error Payload)))
  | 0, _ => return []
  | n + 1, walk => do
      let (item, next) ← walk.next
      let items ← next.nexts n
      return item :: items

/-- A frame was cut out of the bytes, and the position has moved behind it. -/
structure Moved (walk : Walk) (payload : Payload) (next : Walk) : Prop where
  further : walk.pos < next.pos
  inside : next.pos ≤ walk.bytes.length
  same : next.bytes = walk.bytes
  part : ∀ bytes, payload = some bytes → bytes.length ≤ walk.bytes.length

theorem moved_of_step {walk next : Walk} {payload : Payload}
    (h : walk.step = .ok (some (payload, next))) : Moved walk payload next := by
  rw [step] at h
  obtain ⟨size, -, h⟩ := ok_of_bind h
  split at h
  · cases h
  · next positive =>
      split at h
      · cases h
      · split at h
        · cases h
        · next stop within =>
            obtain ⟨start, -, h⟩ := ok_of_bind h
            obtain ⟨cut, sliced, h⟩ := ok_of_bind h
            obtain ⟨rfl, -, inside⟩ := addWithin?_eq_some_iff.mp within
            have further : walk.pos < walk.pos + size := by omega
            split at h
            · cases h
              refine ⟨further, inside, rfl, fun bytes cut => ?_⟩
              rw [← Option.some.inj cut]
              exact length_of_slice sliced
            · split at h
              · cases h
              · cases h
                exact ⟨further, inside, rfl, fun bytes none => by cases none⟩

theorem moved_of_next {walk next : Walk} {payload : Payload}
    (h : walk.next = .ok (some (.ok payload), next)) : Moved walk payload next := by
  rw [Walk.next] at h
  split at h
  · cases h
  · split at h
    · next payload following stepped =>
        cases h
        exact moved_of_step stepped
    · cases h
    · cases h
    · cases h

/-- Reads frames up to the end, and stops at the first failure. -/
def finish (walk : Walk) : Reading Walk :=
  match h : walk.next with
  | .error halt => .error halt
  | .ok (none, last) => .ok last
  | .ok (some (.error e), _) => .error (.refused e)
  | .ok (some (.ok _), next) =>
      have := moved_of_next h
      next.finish
termination_by walk.bytes.length - walk.pos
decreasing_by
  have further := this.further
  have inside := this.inside
  rw [this.same]
  omega

/-- The frame that a step of the library finds where a step of the machine finds this one. -/
def shown (found : Option (Payload × Walk)) : Option (Payload × TupleWire.Walk) :=
  found.map fun (payload, next) => (payload, next.view)

theorem step_follows {walk : Walk} (fits : walk.bytes.length < positions) :
    Follows (shown · = ·) walk.step walk.view.step := by
  rw [step, length_eq fits, wordAt?, TupleWire.Walk.step]
  simp only [view]
  rcases word : takeWord? (walk.bytes.drop walk.pos) with _ | ⟨w, body⟩
  · exact .refused _
  obtain ⟨rfl, inside⟩ := takeWord?_drop word
  simp only [Option.map_some, Option.bind_some]
  rcases w.length? with _ | size
  · exact .refused _
  simp only [ok_bind]
  by_cases zero : size = 0
  · rw [if_pos zero, if_pos zero]
    exact .ok rfl
  rw [if_neg zero, if_neg zero]
  by_cases short : size < wordSize
  · rw [if_pos short, if_pos short]
    exact .refused _
  rw [if_neg short, if_neg short]
  -- The library takes the payload off what is left; the machine cuts it out by index.
  by_cases within : walk.pos + size ≤ walk.bytes.length
  · have present : size - wordSize ≤ (walk.bytes.drop (walk.pos + wordSize)).length := by
      rw [List.length_drop]
      omega
    have rest : walk.pos + wordSize + (size - wordSize) = walk.pos + size := by omega
    have width : walk.pos + size - (walk.pos + wordSize) = size - wordSize := by omega
    rw [addWithin?_of_le fits within, takeBytes?_of_le present, List.drop_drop, rest]
    simp only
    rw [add_of_le fits inside, ok_bind, slice_of_le (by omega) within, ok_bind, width]
    split
    · exact .ok rfl
    · split
      · exact .refused _
      · exact .ok rfl
  · have missing : (walk.bytes.drop (walk.pos + wordSize)).length < size - wordSize := by
      rw [List.length_drop]
      omega
    rw [addWithin?_of_lt (Nat.not_le.mp within), takeBytes?_of_lt missing]
    exact .refused _

/-- A call of `next` never stops the machine, and gives what the call of the library gives. -/
theorem next_eq {walk : Walk} (fits : walk.bytes.length < positions) :
    ∃ after : Walk, walk.next = .ok (walk.view.next.1, after) ∧ after.view = walk.view.next.2 ∧
      after.bytes = walk.bytes := by
  have follows := step_follows fits
  rw [next, TupleWire.Walk.next]
  by_cases finished : walk.done
  · have seen : walk.view.done = true := finished
    rw [if_pos finished, if_pos seen]
    exact ⟨walk, rfl, rfl, rfl⟩
  · have seen : ¬ walk.view.done = true := finished
    rw [if_neg finished, if_neg seen]
    -- Both steps are named first, so that one case decides both.
    generalize stepped : walk.step = found at follows ⊢
    generalize walk.view.step = shown at follows ⊢
    cases follows with
    | @ok found _ related =>
        subst related
        cases found with
        | none => exact ⟨{ walk with done := true }, rfl, rfl, rfl⟩
        | some frame =>
            obtain ⟨payload, after⟩ := frame
            exact ⟨after, rfl, rfl, (moved_of_step stepped).same⟩
    | refused e => exact ⟨{ walk with done := true }, rfl, rfl, rfl⟩

theorem drain_of_next_none {walk last : Walk} (fits : walk.bytes.length < positions)
    (h : walk.next = .ok (none, last)) : walk.view.drain = ([], last.view) := by
  obtain ⟨after, given, seen, -⟩ := next_eq fits
  rw [given] at h
  obtain ⟨none, rfl⟩ := Prod.mk.inj (Except.ok.inj h)
  rw [TupleWire.Walk.drain_eq, seen, ← Prod.eta walk.view.next, none]

theorem drain_of_next_some {walk after : Walk} {item : Except Error Payload}
    (fits : walk.bytes.length < positions) (h : walk.next = .ok (some item, after)) :
    walk.view.drain = (item :: after.view.drain.1, after.view.drain.2) ∧
      after.bytes = walk.bytes := by
  obtain ⟨after, given, seen, same⟩ := next_eq fits
  rw [given] at h
  obtain ⟨some, rfl⟩ := Prod.mk.inj (Except.ok.inj h)
  refine ⟨?_, same⟩
  rw [TupleWire.Walk.drain_eq, seen, ← Prod.eta walk.view.next, some]

theorem nexts_eq {walk : Walk} (fits : walk.bytes.length < positions) (n : Nat) :
    walk.nexts n = .ok (walk.view.nexts n) := by
  induction n generalizing walk with
  | zero => rfl
  | succ n ih =>
      obtain ⟨after, given, seen, same⟩ := next_eq fits
      have short : after.bytes.length < positions := by rwa [same]
      have later := ih short
      rw [nexts, given, ok_bind]
      simp only
      rw [later, TupleWire.Walk.nexts, ← seen]
      rfl

theorem finish_follows {walk : Walk} (fits : walk.bytes.length < positions) :
    Follows (view · = ·) walk.finish
      ((walk.view.drain.1.mapM id).map fun _ => walk.view.drain.2) := by
  -- The induction is on the calls; each hands the same bytes on.
  fun_induction finish walk with
  | case1 walk halt failed =>
      obtain ⟨after, given, -, -⟩ := next_eq fits
      rw [failed] at given
      cases given
  | case2 walk last ended =>
      rw [drain_of_next_none fits ended]
      exact .ok rfl
  | case3 walk e last failed =>
      rw [(drain_of_next_some fits failed).1]
      exact .refused e
  | case4 walk payload next found further ih =>
      obtain ⟨drained, same⟩ := drain_of_next_some fits found
      have later := ih (by rwa [same])
      rw [drained]
      simp only [List.mapM_cons]
      generalize next.view.drain.1.mapM id = others at later ⊢
      cases others with
      | error e => exact later
      | ok payloads => exact later

theorem finish_of_ends {walk : Walk} {body : Bytes} {parts : List Bytes}
    (fits : walk.bytes.length < positions) (ends : walk.view.Ends body parts) :
    ∃ last, walk.finish = .ok last ∧ last.pos = walk.pos + body.length ∧
      last.pos + wordSize ≤ walk.bytes.length := by
  obtain ⟨behind, rest, drained⟩ := ends
  have follows := finish_follows fits
  rw [drained, TupleWire.Walk.found, mapM_id_ok] at follows
  generalize walk.finish = reading at follows ⊢
  cases follows with
  | @ok last _ related =>
      have pos : last.pos = walk.pos + body.length := congrArg TupleWire.Walk.pos related
      have length : (walk.bytes.drop walk.pos).length = _ := congrArg List.length rest
      rw [List.length_drop, List.length_append, List.length_append, Word.length_toBytes] at length
      exact ⟨last, rfl, pos, by simp only [wordSize] at length ⊢; omega⟩

theorem finish_of_fails {walk : Walk} {body : Bytes} {parts : List Bytes}
    (fits : walk.bytes.length < positions) (fails : walk.view.Fails body parts) :
    ∃ e, walk.view.drain.1.mapM id = .error e ∧ walk.finish = .error (.refused e) := by
  obtain ⟨corruption, behind, -, drained⟩ := fails
  have follows := finish_follows fits
  rw [drained, TupleWire.Walk.found, mapM_id_error] at follows
  rw [drained, TupleWire.Walk.found, mapM_id_error]
  generalize walk.finish = reading at follows ⊢
  cases follows with
  | refused e => exact ⟨_, rfl, rfl⟩

end Walk

def columnWalk (frame : RowFrame) : Walk := ⟨frame.bytes, wordSize, false⟩

theorem view_columnWalk (frame : RowFrame) : (columnWalk frame).view = frame.walk := rfl

def checkRowFrame (frame : RowFrame) : Reading RowFrame := do
  let last ← (columnWalk frame).finish
  let stop ← add last.pos wordSize
  if stop = frame.size then return frame else refuse .rowLengthDisagrees last.pos

def readRowFrame (bytes : Bytes) : Reading RowFrame := do
  let total ← length bytes 0 .rowLengthTruncated
  if total < 2 * wordSize ∨ bytes.length < total then refuse .rowLengthOutOfRange 0
  else
    let front ← slice bytes 0 total
    checkRowFrame ⟨front⟩

theorem checkRowFrame_eq {frame : RowFrame} (fits : frame.size < positions) :
    checkRowFrame frame = frame.check.mapError .refused := by
  have short : (columnWalk frame).bytes.length < positions := fits
  obtain ⟨body, parts, -, ends | fails⟩ := frame.walk.drain_splits rfl
  · obtain ⟨last, finished, pos, inside⟩ := Walk.finish_of_ends short ends
    have stop : last.pos = wordSize + body.length := pos
    rw [checkRowFrame, finished, RowFrame.check_of_ends ends, ← stop, ok_bind,
      add_of_le short inside, ok_bind]
    split <;> rfl
  · obtain ⟨e, refused, stopped⟩ := Walk.finish_of_fails short fails
    rw [view_columnWalk] at refused
    rw [checkRowFrame, stopped, RowFrame.check]
    simp only
    rw [refused]
    rfl

theorem readRowFrame_eq {bytes : Bytes} (fits : bytes.length < positions) :
    readRowFrame bytes = (RowFrame.read bytes).mapError .refused := by
  rw [readRowFrame, length_eq fits, RowFrame.read]
  rcases (wordAt? bytes 0).bind Word.length? with _ | total
  · rfl
  simp only [ok_bind]
  by_cases least : total < 2 * wordSize
  · rw [if_pos (.inl least), if_pos least]
    rfl
  rw [if_neg least]
  by_cases present : total ≤ bytes.length
  · rw [if_neg (by omega), takeBytes?_of_le present, slice_of_le (Nat.zero_le _) present,
      List.drop_zero, Nat.sub_zero]
    have short : RowFrame.size ⟨bytes.take total⟩ < positions := by
      rw [RowFrame.size, List.length_take_of_le present]
      omega
    exact checkRowFrame_eq short
  · have missing := Nat.not_le.mp present
    rw [if_pos (.inr missing), takeBytes?_of_lt missing]
    rfl

end Machine

end TupleWire
