import TupleWire.Message
import TupleWire.Proofs.Scan.Encoding

/-! What a source still has to give, read off its fetches, and what a scan makes of it: a
message for each row, up to the first that cannot be written. -/
namespace TupleWire

/-- Items in their order, and the failure behind them, unless they just end. -/
structure Course (α : Type) where
  items : List α
  failure : Option Error := none
  deriving DecidableEq, Repr

namespace Course

variable {α β : Type}

def cons (item : α) (course : Course α) : Course α :=
  { course with items := item :: course.items }

/-- What is made of the items, up to the first of which nothing can be made. -/
def makeAll (make : α → Except Error β) (failure : Option Error) : List α → Course β
  | [] => { items := [], failure }
  | item :: items =>
      match make item with
      | .ok made => (makeAll make failure items).cons made
      | .error e => { items := [], failure := some e }

def through (make : α → Except Error β) (course : Course α) : Course β :=
  makeAll make course.failure course.items

variable {make : α → Except Error β} {item : α} {course : Course α}

theorem through_cons_of_ok {made : β} (h : make item = .ok made) :
    (course.cons item).through make = (course.through make).cons made := by
  rw [through, cons, makeAll, h]
  rfl

theorem through_cons_of_error {e : Error} (h : make item = .error e) :
    (course.cons item).through make = { items := [], failure := some e } := by
  rw [through, cons, makeAll, h]

theorem through_of_ok {f : α → β} {items : List α} (h : ∀ item ∈ items, make item = .ok (f item))
    (failure : Option Error) :
    through make { items, failure } = { items := items.map f, failure } := by
  induction items with
  | nil => rfl
  | cons item items ih =>
      have rest := ih fun other member => h other (List.mem_cons_of_mem item member)
      have first : through make (cons item { items, failure }) = _ :=
        through_cons_of_ok (h item List.mem_cons_self)
      rw [rest] at first
      exact first

end Course

variable {σ ω : Type} [Source σ ω]

/-- The rows that a source gives, up to the first fetch that gives none, and the failure
that this fetch tells, if it tells one. -/
def Source.course (source : σ) (world : ω) : Course Row :=
  match _h : (Source.fetch source world).result with
  | .ok (some row) =>
      (course (Source.fetch source world).source (Source.fetch source world).world).cons row
  | .ok none => { items := [] }
  | .error e => { items := [], failure := some e }
termination_by Source.supply source
decreasing_by exact Source.supply_lt_of_fetch source world row (by assumption)

namespace Source

variable {source : σ} {world : ω}

theorem course_of_row {row : Row} (h : (Source.fetch source world).result = .ok (some row)) :
    course source world =
      (course (Source.fetch source world).source (Source.fetch source world).world).cons row := by
  rw [course]
  split
  · next same =>
      cases h.symm.trans same
      rfl
  · next same => cases h.symm.trans same
  · next same => cases h.symm.trans same

theorem course_of_end (h : (Source.fetch source world).result = .ok none) :
    course source world = { items := [] } := by
  rw [course]
  split
  · next same => cases h.symm.trans same
  · rfl
  · next same => cases h.symm.trans same

theorem course_of_failure {e : Error} (h : (Source.fetch source world).result = .error e) :
    course source world = { items := [], failure := some e } := by
  rw [course]
  split
  · next same => cases h.symm.trans same
  · next same => cases h.symm.trans same
  · next same =>
      cases h.symm.trans same
      rfl

theorem fetch_of_course_cons {row : Row} {rows : List Row} {failure : Option Error}
    (h : course source world = { items := row :: rows, failure }) :
    (Source.fetch source world).result = .ok (some row) ∧
      course (Source.fetch source world).source (Source.fetch source world).world =
        { items := rows, failure } := by
  rcases result : (Source.fetch source world).result with e | _ | first
  · cases h.symm.trans (course_of_failure result)
  · cases h.symm.trans (course_of_end result)
  · have same := h.symm.trans (course_of_row result)
    rw [Course.cons, Course.mk.injEq, List.cons.injEq] at same
    obtain ⟨⟨rfl, items⟩, rest⟩ := same
    rw [items, rest]
    exact ⟨rfl, rfl⟩

theorem fetch_of_course_nil (h : course source world = { items := [] }) :
    (Source.fetch source world).result = .ok none := by
  rcases result : (Source.fetch source world).result with e | _ | first
  · cases h.symm.trans (course_of_failure result)
  · rfl
  · cases h.symm.trans (course_of_row result)

end Source

theorem Message.wrap_frame (form : LengthForm) (body : Bytes) :
    wrap (Layout.frame form body) =
      .ok (rowTag.toBytes ++ (Layout.frame form body).drop wordSize) := by
  rw [wrap, Layout.frame, takeWord?_append]
  rfl

/-- The message of a row: the frame that is written into an empty buffer, with the tag in
place of its first word. -/
def Row.message (list : List Column) (room : Nat) (row : Row) : Except Error Bytes :=
  match (Write.putRow row list).on { limit := room } with
  | (.ok _, buf) => .ok (Message.rowTag.toBytes ++ buf.bytes.drop wordSize)
  | (.error e, _) => .error (e.ofRow row)

namespace Row

variable {list : List Column} {room : Nat} {row : Row}

theorem message_of_ok {length : Nat} {next : Buffer}
    (h : (Write.putRow row list).on { limit := room } = (.ok length, next)) :
    row.message list room = .ok (Message.rowTag.toBytes ++ next.bytes.drop wordSize) := by
  rw [message, h]

theorem message_of_error {e : Error} {next : Buffer}
    (h : (Write.putRow row list).on { limit := room } = (.error e, next)) :
    row.message list room = .error (e.ofRow row) := by
  rw [message, h]

end Row

namespace Scan

/-- The rows that a scan still has: the one that it holds, and those of its source. -/
def course (scan : Scan σ) (world : ω) : Course Row :=
  match scan.phase, scan.source, scan.held with
  | .running, some source, none => Source.course source world
  | .running, some source, some row => (Source.course source world).cons row
  | _, _, _ => { items := [] }

def messages (scan : Scan σ) (world : ω) : Course Bytes :=
  (scan.course world).through (Row.message scan.heading.columns scan.room)

/-- A call for the next row takes the first message off those that a scan has. -/
structure Takes (scan : Scan σ) (world : ω) (turn : Turn σ ω) : Prop where
  row : turn.result = .ok true → turn.scan.phase = .running ∧
    ∃ message, Message.wrap turn.buf.bytes = .ok message ∧
      scan.messages world = (turn.scan.messages turn.world).cons message
  ended : turn.result = .ok false → scan.messages world = { items := [] }
  failed : ∀ e, turn.result = .error e → scan.messages world = { items := [], failure := some e }

theorem takes_encode {before : Scan σ} {earlier : ω} (scan : Scan σ) (world : ω) {row : Row}
    (running : scan.phase = .running) (heading : before.heading = scan.heading)
    (room : before.room = scan.room)
    (rows : before.course earlier = (scan.course world).cons row) :
    Takes before earlier (scan.encode row scan.freshBuf world) := by
  have messages : before.messages earlier =
      ((scan.course world).cons row).through (Row.message scan.heading.columns scan.room) := by
    rw [Scan.messages, heading, room, rows]
  rcases Write.on_putRow row scan.heading.columns scan.freshBuf with laid | ⟨e, refused⟩
  · rw [encode_of_ok laid]
    refine ⟨fun _ => ⟨running, _, Message.wrap_frame _ _, ?_⟩, nofun, nofun⟩
    rw [messages, Course.through_cons_of_ok (Row.message_of_ok laid)]
    rfl
  · have told : before.messages earlier = { items := [], failure := some (e.ofRow row) } := by
      rw [messages, Course.through_cons_of_error (Row.message_of_error refused)]
    cases retryable : e.retryable with
    | true =>
        rw [encode_of_retryable refused retryable]
        refine ⟨nofun, nofun, fun other same => ?_⟩
        cases same
        exact told
    | false =>
        rw [encode_of_fatal refused retryable]
        refine ⟨nofun, nofun, fun other same => ?_⟩
        cases same
        exact told

section Course

variable (scan : Scan σ) (world : ω) {source : σ} {row : Row}

theorem course_of_held (running : scan.phase = .running) (present : scan.source = some source)
    (held : scan.held = some row) :
    scan.course world = (Source.course source world).cons row := by
  rw [course, running, present, held]

theorem course_of_free (running : scan.phase = .running) (present : scan.source = some source)
    (free : scan.held = none) : scan.course world = Source.course source world := by
  rw [course, running, present, free]

theorem course_of_finished (finished : scan.phase ≠ .running) :
    scan.course world = { items := [] } := by
  rw [course]
  split
  · next running _ _ => exact absurd running finished
  · next running _ _ => exact absurd running finished
  · rfl

theorem course_of_released (released : scan.source = none) :
    scan.course world = { items := [] } := by
  rw [course, released]
  cases scan.phase with
  | _ => rfl

end Course

/-- As long as a scan has not been ended by a failure, each call for a row takes the next of
its messages. -/
theorem takes_writeNext (scan : Scan σ) (world : ω)
    (unfinished : scan.phase = .running ∨ scan.phase = .exhausted) :
    Takes scan world (scan.writeNext scan.freshBuf world) := by
  have none_left : scan.course world = { items := [] } → scan.messages world = { items := [] } :=
    fun rows => by rw [messages, rows]; rfl
  refine writeNext_cases scan scan.freshBuf world ?_ ?_ ?_ ?_ ?_ ?_ ?_
  · intro finished
    refine ⟨nofun, fun _ => none_left (course_of_finished scan world ?_), nofun⟩
    rcases finished with exhausted | closed
    · exact exhausted ▸ nofun
    · exact closed ▸ nofun
  · intro after aborted
    rw [aborted] at unfinished
    exact absurd unfinished nofun
  · intro running released
    exact ⟨nofun, fun _ => none_left (course_of_released scan world released), nofun⟩
  · intro source row running present held
    let emptied : Scan σ := { scan with held := none }
    refine takes_encode emptied world running rfl rfl ?_
    rw [course_of_held scan world running present held,
      course_of_free emptied world running present rfl]
  · intro source row running present free fetched
    let later : Scan σ := { scan with source := some (Source.fetch source world).source }
    refine takes_encode later _ running rfl rfl ?_
    rw [course_of_free scan world running present free, Source.course_of_row fetched,
      course_of_free later _ running rfl free]
  · intro source running present free fetched
    refine ⟨nofun, fun _ => none_left ?_, nofun⟩
    rw [course_of_free scan world running present free, Source.course_of_end fetched]
  · intro source e running present free fetched
    refine ⟨nofun, nofun, fun other same => ?_⟩
    cases same
    rw [messages, course_of_free scan world running present free,
      Source.course_of_failure fetched]
    rfl

end Scan

end TupleWire
