import TupleWire.Proofs.Frame.RowReading

/-! Byte strings that are made of column frames, and the course of every walk: it reads such
a string, and then it meets the zero word or fails where it stands. -/
namespace TupleWire

namespace Word

theorem signed_eq_natCast_iff {w : Word} {n : Nat} :
    w.signed = n ↔ n < 0x80000000 ∧ w = ofNat n := by
  have bound := w.toNat_lt
  have back : ofNat w.toNat = w := UInt32.ofNat_toNat
  rw [signed]
  constructor
  · intro h
    split at h
    · next small =>
        have same : w.toNat = n := by omega
        exact ⟨by omega, by rw [← same, back]⟩
    · omega
  · rintro ⟨small, rfl⟩
    rw [toNat_ofNat (by omega), if_pos small]

theorem length?_eq_some_iff {w : Word} {n : Nat} : w.length? = some n ↔ w.signed = n := by
  rw [length?, signed]
  have bound := w.toNat_lt
  split
  · rw [Option.some.injEq, Int.natCast_inj]
  · refine iff_of_false (fun h => ?_) (fun h => ?_)
    · cases h
    · omega

end Word

/-- A string of column frames and nothing else, with what stands in the frames. Each frame is
a signed word that counts it, and the bytes behind that word. -/
inductive Splits : Bytes → List Bytes → Prop
  | nil : Splits [] []
  | cons {w : Word} {bytes rest : Bytes} {parts : List Bytes}
      (counted : w.signed = (wordSize + bytes.length : Nat)) (clean : Payload.Clean bytes)
      (others : Splits rest parts) : Splits (w.toBytes ++ bytes ++ rest) (bytes :: parts)

namespace Splits

variable {bytes : Bytes} {parts other : List Bytes}

theorem length_le (h : Splits bytes parts) : wordSize * parts.length ≤ bytes.length := by
  induction h with
  | nil => exact Nat.zero_le _
  | cons counted clean others ih =>
      simp only [List.length_append, List.length_cons, Word.length_toBytes, Nat.mul_succ] at ih ⊢
      omega

theorem unique (h : Splits bytes parts) (h' : Splits bytes other) : parts = other := by
  induction h generalizing other with
  | nil =>
      generalize empty : ([] : Bytes) = bytes at h'
      cases h' with
      | nil => rfl
      | cons counted clean others => cases empty
  | @cons w body rest parts counted clean others ih =>
      generalize same : w.toBytes ++ body ++ rest = bytes at h'
      cases h' with
      | nil => cases same
      | @cons v body' rest' other counted' clean' others' =>
          have front := congrArg takeWord? same
          simp only [List.append_assoc, takeWord?_append, Option.some.injEq, Prod.mk.injEq] at front
          obtain ⟨rfl, behind⟩ := front
          have length : body.length = body'.length := by omega
          obtain ⟨rfl, rfl⟩ := List.append_inj behind length
          rw [ih others']

end Splits

namespace Walk

/-- What one step can do: read a column frame, meet the zero word, or fail where it stands. -/
inductive Goes (walk : Walk) : Prop
  | frame (w : Word) (bytes : Bytes) (next : Walk)
      (front : walk.rest = w.toBytes ++ bytes ++ next.rest)
      (counted : w.signed = (wordSize + bytes.length : Nat)) (clean : Payload.Clean bytes)
      (moved : next.pos = walk.pos + (wordSize + bytes.length)) (same : next.done = walk.done)
      (step : walk.step = .ok (some (Payload.ofBytes bytes, next)))
  | ended (behind : Bytes) (front : walk.rest = (0 : Word).toBytes ++ behind)
      (step : walk.step = .ok none)
  | failed (corruption : Corruption) (step : walk.step = .error (.corruptAt corruption walk.pos))

theorem step_of_clean {w : Word} {bytes : Bytes} (clean : Payload.Clean bytes)
    (counted : w.signed = (wordSize + bytes.length : Nat)) (rest : Bytes) (pos : Nat) (done : Bool) :
    step ⟨w.toBytes ++ bytes ++ rest, pos, done⟩ =
      .ok (some (Payload.ofBytes bytes, ⟨rest, pos + (wordSize + bytes.length), done⟩)) := by
  obtain ⟨fits, stored⟩ := Word.signed_eq_natCast_iff.mp counted
  have frame : w.toBytes ++ bytes = Layout.frame .raw bytes := by rw [stored]; rfl
  have step := step_frame clean (by rwa [Layout.length_frame]) rest pos done
  rwa [← frame, List.length_append, Word.length_toBytes] at step

theorem step_of_length {w : Word} {size : Nat} (length : w.length? = some size) (body : Bytes)
    (pos : Nat) (done : Bool) :
    step ⟨w.toBytes ++ body, pos, done⟩ =
      if size = 0 then .ok none
      else if size < wordSize then .error (.corruptAt .columnTooShort pos)
      else
        match takeBytes? (size - wordSize) body with
        | none => .error (.corruptAt .columnOverrun pos)
        | some (payload, rest) =>
            if wordSize ≤ payload.length then .ok (some (some payload, ⟨rest, pos + size, done⟩))
            else if payload.any (· ≠ 0) then .error (.corruptAt .columnPaddingDirty pos)
            else .ok (some (none, ⟨rest, pos + size, done⟩)) := by
  rw [step, takeWord?_append]
  simp only
  generalize w.length? = found at length ⊢
  subst length
  rfl

theorem goes_of_counted {w : Word} {size : Nat} (counted : w.signed = size) (body : Bytes)
    (pos : Nat) (done : Bool) : Goes ⟨w.toBytes ++ body, pos, done⟩ := by
  have stepped := step_of_length (Word.length?_eq_some_iff.mpr counted) body pos done
  by_cases zero : size = 0
  · rw [if_pos zero] at stepped
    have nought : w = 0 := by
      rw [zero] at counted
      exact (Word.signed_eq_natCast_iff.mp counted).2
    exact .ended body (by rw [nought]) stepped
  rw [if_neg zero] at stepped
  by_cases short : size < wordSize
  · rw [if_pos short] at stepped
    exact .failed .columnTooShort stepped
  rw [if_neg short] at stepped
  rcases taken : takeBytes? (size - wordSize) body with _ | ⟨bytes, rest⟩
  · rw [taken] at stepped
    exact .failed .columnOverrun stepped
  by_cases clean : Payload.Clean bytes
  · obtain ⟨rfl, full⟩ := takeBytes?_eq_some_iff.mp taken
    have whole : size = wordSize + bytes.length := by omega
    rw [whole] at counted
    have step := step_of_clean clean counted rest pos done
    rw [List.append_assoc] at step
    exact .frame w bytes ⟨rest, pos + (wordSize + bytes.length), done⟩
      (List.append_assoc _ _ _).symm counted clean rfl rfl step
  · have dirty : bytes.length < wordSize ∧ bytes.any (· ≠ 0) = true := by
      simpa [Payload.Clean] using clean
    rw [taken] at stepped
    simp only at stepped
    rw [if_neg (Nat.not_le.mpr dirty.1), if_pos dirty.2] at stepped
    exact .failed .columnPaddingDirty stepped

theorem goes (walk : Walk) : walk.Goes := by
  obtain ⟨rest, pos, done⟩ := walk
  rcases word : takeWord? rest with _ | ⟨w, body⟩
  · exact .failed .terminatorMissing (by rw [step, word])
  · rcases length : w.length? with _ | size
    · exact .failed .terminatorMissing (by rw [step, word]; simp only; rw [length])
    · rw [takeWord?_eq_some_iff] at word
      subst word
      exact goes_of_counted (Word.length?_eq_some_iff.mp length) body pos done

def found (parts : List Bytes) : List (Except Error Payload) :=
  (parts.map Payload.ofBytes).map .ok

/-- The walk reads the frames of `body` and then meets the zero word. -/
def Ends (walk : Walk) (body : Bytes) (parts : List Bytes) : Prop :=
  ∃ behind, walk.rest = body ++ ((0 : Word).toBytes ++ behind) ∧
    walk.drain = (found parts, ⟨(0 : Word).toBytes ++ behind, walk.pos + body.length, true⟩)

/-- The walk reads the frames of `body` and then fails where it stands. -/
def Fails (walk : Walk) (body : Bytes) (parts : List Bytes) : Prop :=
  ∃ corruption behind, walk.rest = body ++ behind ∧
    walk.drain = (found parts ++ [.error (.corruptAt corruption (walk.pos + body.length))],
      ⟨behind, walk.pos + body.length, true⟩)

theorem drain_of_failure {walk : Walk} {e : Error} (running : walk.done = false)
    (h : walk.step = .error e) : walk.drain = ([.error e], { walk with done := true }) := by
  have failed : walk.next = (some (.error e), { walk with done := true }) := by
    simp [Walk.next, running, h]
  have finished : drain { walk with done := true } = ([], { walk with done := true }) := by
    rw [drain]
    rfl
  rw [drain]
  split
  · next none =>
      rw [failed] at none
      cases none
  · next item after given =>
      rw [failed] at given
      cases given
      rw [finished]

/-- Every walk reads a string of column frames, and then it ends or fails once. -/
theorem drain_splits (walk : Walk) (running : walk.done = false) :
    ∃ body parts, Splits body parts ∧ (walk.Ends body parts ∨ walk.Fails body parts) := by
  -- The rest grows shorter with every frame; the frame goes in front of what later steps read.
  induction size : walk.rest.length using Nat.strongRecOn generalizing walk with
  | ind size ih =>
      cases walk.goes with
      | frame w bytes next front counted clean moved same step =>
          have shorter := congrArg List.length front
          simp only [List.length_append, Word.length_toBytes, wordSize] at shorter
          obtain ⟨body, parts, splits, course⟩ := ih next.rest.length (by omega) next
            (same.trans running) rfl
          have length : walk.pos + (w.toBytes ++ bytes ++ body).length = next.pos + body.length := by
            rw [moved, List.length_append, List.length_append, Word.length_toBytes]
            omega
          refine ⟨w.toBytes ++ bytes ++ body, bytes :: parts, .cons counted clean splits, ?_⟩
          rcases course with ⟨behind, rest, drained⟩ | ⟨corruption, behind, rest, drained⟩
          · refine .inl ⟨behind, by rw [front, rest, List.append_assoc (w.toBytes ++ bytes)], ?_⟩
            rw [drain_of_frame running step, drained, length]
            rfl
          · refine .inr ⟨corruption, behind,
              by rw [front, rest, List.append_assoc (w.toBytes ++ bytes)], ?_⟩
            rw [drain_of_frame running step, drained, length]
            rfl
      | ended behind front step =>
          refine ⟨[], [], .nil, .inl ⟨behind, front, ?_⟩⟩
          rw [drain_of_end running step, ← front]
          rfl
      | failed corruption step =>
          refine ⟨[], [], .nil, .inr ⟨corruption, walk.rest, rfl, ?_⟩⟩
          rw [drain_of_failure running step]
          rfl

theorem ends_of_splits {body : Bytes} {parts : List Bytes} (h : Splits body parts)
    (behind : Bytes) (pos : Nat) :
    Ends ⟨body ++ ((0 : Word).toBytes ++ behind), pos, false⟩ body parts := by
  refine ⟨behind, rfl, ?_⟩
  induction h generalizing pos with
  | nil => exact drain_of_end rfl (step_zeroWord behind pos false)
  | @cons w bytes rest parts counted clean others ih =>
      have step := step_of_clean clean counted (rest ++ ((0 : Word).toBytes ++ behind)) pos false
      have length : pos + (w.toBytes ++ bytes ++ rest).length =
          pos + (wordSize + bytes.length) + rest.length := by
        rw [List.length_append, List.length_append, Word.length_toBytes]
        omega
      rw [List.append_assoc (w.toBytes ++ bytes), drain_of_frame rfl step, ih, length]
      rfl

def nexts : (n : Nat) → Walk → List (Option (Except Error Payload))
  | 0, _ => []
  | n + 1, walk => walk.next.1 :: walk.next.2.nexts n

theorem nexts_of_done {walk : Walk} (finished : walk.done = true) (n : Nat) :
    walk.nexts n = List.replicate n none := by
  induction n with
  | zero => rfl
  | succ n ih =>
      have stays : walk.next = (none, walk) := by rw [Walk.next, if_pos finished]
      rw [nexts, stays, ih, List.replicate_succ]

theorem done_of_next {walk last : Walk} (h : walk.next = (none, last)) : last.done = true := by
  rw [Walk.next] at h
  split at h
  · next finished =>
      cases h
      exact finished
  · split at h
    · cases h
    · cases h
      rfl
    · cases h

/-- What a walk gives until it is over is what its calls give; later calls give nothing. -/
theorem nexts_drain (walk : Walk) (n : Nat) :
    walk.nexts (walk.drain.1.length + n) = walk.drain.1.map some ++ List.replicate n none := by
  induction size : walk.measure using Nat.strongRecOn generalizing walk with
  | ind size ih =>
      rw [drain]
      split
      · next last given =>
          cases n with
          | zero => rfl
          | succ n =>
              have later := nexts_of_done (done_of_next given) n
              rw [List.length_nil, Nat.zero_add, nexts, given, later]
              rfl
      · next item after given =>
          have later := ih after.measure (size ▸ measure_next_lt given) after rfl
          simp only [List.length_cons, Nat.succ_add, nexts, given, later]
          rfl

end Walk

end TupleWire
