import TupleWire.Proofs.Scan.Course
import TupleWire.Proofs.Scan.Delivering

/-! The messages that a delivery offers, and what it gives: both are told by the messages that
the scan still has and by the answers of the sink. -/
namespace TupleWire

namespace Course

/-- The messages that a sink is to be offered: behind the last row the mark of the end, unless
the rows end with a failure. -/
def planned (course : Course Bytes) : List Bytes :=
  course.items ++ if course.failure.isNone then [Message.endMark] else []

theorem length_planned_le (course : Course Bytes) :
    course.planned.length ≤ course.items.length + 1 := by
  rw [planned, List.length_append]
  split
  · exact Nat.le_refl _
  · exact Nat.le_succ _

/-- What the delivery of the whole course gives, after the rows that `tally` counts. -/
def total (course : Course Bytes) (tally : Tally) : Except Error Tally :=
  match course.failure with
  | none => .ok (course.items.foldl Tally.add tally)
  | some e => .error e

end Course

theorem Tally.foldl_add (tally : Tally) (messages : List Bytes) :
    messages.foldl add tally =
      { tally with
        rows := tally.rows + messages.length, bytes := tally.bytes + messages.flatten.length } := by
  induction messages generalizing tally with
  | nil => rfl
  | cons message messages ih =>
      rw [List.foldl_cons, ih, add, List.flatten_cons, List.length_append, List.length_cons]
      simp only [Nat.add_assoc, Nat.add_comm 1]

/-- A delivery offers what is planned, up to the first message that the sink does not take. -/
structure Delivered.Follows {σ ω : Type} (sent : Delivered σ ω) (sink : Sink) (tally : Tally)
    (course : Course Bytes) : Prop where
  whole : (∀ n < course.planned.length, sink.answer n = .ok .taken) →
    sent.sink.offered = sink.offered ++ course.planned ∧ sent.result = course.total tally
  cut : ∀ n < course.planned.length, (∀ m < n, sink.answer m = .ok .taken) →
    sink.answer n ≠ .ok .taken →
      sent.sink.offered = sink.offered ++ course.planned.take (n + 1) ∧
        sent.result = (sink.answer n).map fun _ =>
          ((course.items.take n).foldl Tally.add tally).detach

namespace Delivered.Follows

variable {σ ω : Type} {sent : Delivered σ ω} {sink after : Sink} {tally : Tally}
  {course : Course Bytes} {message : Bytes}

theorem failed {e : Error} (result : sent.result = .error e) (same : sent.sink = sink) :
    sent.Follows sink tally { items := [], failure := some e } := by
  refine ⟨fun _ => ⟨?_, result⟩, nofun⟩
  rw [same]
  exact (List.append_nil _).symm

theorem taken (offered : sink.offer message = (.ok .taken, after))
    (rest : sent.Follows after (tally.add message) course) :
    sent.Follows sink tally (course.cons message) := by
  obtain ⟨first, later, log⟩ := Sink.of_offer offered
  have front : ∀ back, sink.offered ++ message :: back = after.offered ++ back := by
    intro back
    rw [log, List.append_assoc]
    rfl
  constructor
  · intro all
    obtain ⟨sentRest, result⟩ := rest.whole fun n inside => by
      rw [later]
      exact all (n + 1) (Nat.succ_lt_succ inside)
    exact ⟨sentRest.trans (front _).symm, result⟩
  · intro n inside before stops
    cases n with
    | zero => exact absurd first.symm stops
    | succ n =>
        rw [← later] at stops
        obtain ⟨sentRest, result⟩ := rest.cut n (Nat.lt_of_succ_lt_succ inside)
          (fun m less => by
            rw [later]
            exact before (m + 1) (Nat.succ_lt_succ less)) stops
        rw [later] at result
        exact ⟨sentRest.trans (front _).symm, result⟩

theorem stopped {receipt : Except Error Receipt} {rest : List Bytes}
    (offered : sink.offer message = (receipt, after)) (refused : receipt ≠ .ok .taken)
    (planned : course.planned = message :: rest) (same : sent.sink = after)
    (result : sent.result = receipt.map fun _ => tally.detach) :
    sent.Follows sink tally course := by
  obtain ⟨first, -, log⟩ := Sink.of_offer offered
  constructor
  · intro all
    exact absurd (first.trans (all 0 (by rw [planned]; exact Nat.succ_pos _))) refused
  · intro n _ before _
    cases n with
    | zero =>
        rw [same, log, planned, result, first]
        exact ⟨rfl, rfl⟩
    | succ n => exact absurd (first.trans (before 0 (Nat.succ_pos n))) refused

theorem ended {receipt : Except Error Receipt}
    (offered : sink.offer Message.endMark = (receipt, after)) (same : sent.sink = after)
    (result : sent.result = receipt.map fun
      | .taken => tally
      | .detached => tally.detach) :
    sent.Follows sink tally { items := [] } := by
  obtain ⟨first, -, log⟩ := Sink.of_offer offered
  rcases receipt with e | _ | _
  · exact stopped offered nofun rfl same result
  · refine ⟨fun _ => ?_, fun n inside _ stops => ?_⟩
    · rw [same, log, result]
      exact ⟨rfl, rfl⟩
    · obtain rfl : n = 0 := Nat.lt_one_iff.mp inside
      exact absurd first.symm stops
  · exact stopped offered nofun rfl same result

end Delivered.Follows

namespace Scan

variable {σ ω : Type} [Source σ ω]

theorem deliverRows_follows (scan : Scan σ) (sink : Sink) (world : ω) (tally : Tally)
    (unfinished : scan.phase = .running ∨ scan.phase = .exhausted) :
    (scan.deliverRows sink world tally).Follows sink tally (scan.messages world) := by
  have takes : ∀ {scan : Scan σ} {world turn}, scan.writeNext scan.freshBuf world = turn →
      scan.phase = .running ∨ scan.phase = .exhausted → Takes scan world turn := by
    rintro scan world turn rfl unfinished
    exact takes_writeNext scan world unfinished
  revert unfinished
  refine deliverRows_induct
    (motive := fun scan sink world tally sent =>
      scan.phase = .running ∨ scan.phase = .exhausted →
        sent.Follows sink tally (scan.messages world))
    ?_ ?_ ?_ ?_ ?_ ?_ scan sink world tally
  · intro scan sink world tally turn e asked failed unfinished
    rw [(takes asked unfinished).failed e failed]
    exact .failed rfl rfl
  · intro scan sink world tally turn asked ended unfinished
    rw [(takes asked unfinished).ended ended]
    exact .ended rfl rfl rfl
  · intro scan sink world tally turn e asked written unwrapped unfinished
    obtain ⟨_, message, wrapped, _⟩ := (takes asked unfinished).row written
    cases wrapped.symm.trans unwrapped
  · intro scan sink world tally turn message e after asked written wrapped offered unfinished
    obtain ⟨_, first, same, messages⟩ := (takes asked unfinished).row written
    cases same.symm.trans wrapped
    rw [messages]
    exact .stopped offered nofun rfl rfl rfl
  · intro scan sink world tally turn message after asked written wrapped offered unfinished
    obtain ⟨_, first, same, messages⟩ := (takes asked unfinished).row written
    cases same.symm.trans wrapped
    rw [messages]
    exact .stopped offered nofun rfl rfl rfl
  · intro scan sink world tally turn message after asked written wrapped offered ih unfinished
    obtain ⟨running, first, same, messages⟩ := (takes asked unfinished).row written
    cases same.symm.trans wrapped
    rw [messages]
    exact .taken offered (ih (.inl running))

/-- If the sink takes every message, the messages of all rows are offered and then the mark of
the end, up to a failure of the source or of a row, which the delivery gives. Otherwise the
first message that is not taken is the last one, and the sink's answer to it decides. Sources are
finite lists of outcomes (see `Source`). -/
theorem deliver_follows_plan (scan : Scan σ) (sink : Sink) (world : ω)
    (unfinished : scan.phase = .running ∨ scan.phase = .exhausted) :
    let course := scan.messages world
    let sent := scan.deliver sink world
    ((∀ n < course.planned.length, sink.answer n = .ok .taken) →
      sent.sink.offered = sink.offered ++ course.planned ∧
        sent.result = match course.failure with
          | none => .ok { rows := course.items.length, bytes := course.items.flatten.length }
          | some e => .error e) ∧
    (∀ n < course.planned.length, (∀ m < n, sink.answer m = .ok .taken) →
      sink.answer n ≠ .ok .taken →
        sent.sink.offered = sink.offered ++ course.planned.take (n + 1) ∧
          sent.result = (sink.answer n).map fun _ =>
            { rows := n, bytes := (course.items.take n).flatten.length, detached := true }) ∧
    sent.scan.isReleased = true ∧ sent.scan.holdsRow = false := by
  intro course sent
  have follows := deliverRows_follows scan sink world {} unfinished
  refine ⟨fun all => ?_, fun n inside before stops => ?_, rfl, rfl⟩
  · obtain ⟨offered, result⟩ := follows.whole all
    refine ⟨offered, result.trans ?_⟩
    rw [Course.total, Tally.foldl_add]
    simp only [Nat.zero_add]
    rfl
  · obtain ⟨offered, result⟩ := follows.cut n inside before stops
    refine ⟨offered, result.trans ?_⟩
    have short : n ≤ course.items.length := by
      have bound := course.length_planned_le
      omega
    rw [Tally.foldl_add, List.length_take, Nat.min_eq_left short]
    simp only [Nat.zero_add]
    rfl

/-- A row that is held, a row of the source, and a sink that detaches at the second. -/
theorem deliver_follows_plan_detached :
    let scan : Scan Script :=
      { source := some { results := [.ok (some [⟨[2], [102], [1], [1]⟩])] }
        heading := ⟨[.rowKey, .leaf [102] [1]], by decide⟩, room := 64
        held := some [⟨[1], [102], [1], [1]⟩], phase := .running }
    let sink : Sink := { answers := [.ok .taken, .ok .detached] }
    let first : Bytes := [0, 0, 0, 0, 12, 0, 0, 0, 20, 0, 0, 0, 1, 0, 0, 0, 4, 0, 0, 0, 0, 0, 0, 0]
    let second : Bytes := [0, 0, 0, 0, 12, 0, 0, 0, 20, 0, 0, 0, 2, 0, 0, 0, 4, 0, 0, 0, 0, 0, 0, 0]
    (scan.messages {}).planned = [first, second, Message.endMark] ∧
      (scan.deliver sink {}).sink.offered = [first, second] ∧
      (scan.deliver sink {}).result = .ok { rows := 1, bytes := 24, detached := true } := by
  intro scan sink first second
  have messages : scan.messages {} = { items := [first, second] } := by decide +kernel
  have planned : (scan.messages {}).planned = [first, second, Message.endMark] := by
    rw [messages]
    rfl
  have before : ∀ m < 1, sink.answer m = .ok .taken := by
    intro m first
    obtain rfl := Nat.lt_one_iff.mp first
    rfl
  obtain ⟨-, cut, -⟩ := deliver_follows_plan scan sink {} (.inl rfl)
  obtain ⟨offered, result⟩ := cut 1 (by rw [planned]; decide) before nofun
  rw [planned] at offered
  rw [messages] at result
  exact ⟨planned, offered, result⟩

end Scan

end TupleWire
