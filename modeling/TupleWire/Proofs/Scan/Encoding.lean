import TupleWire.Proofs.Frame.Layout
import TupleWire.Scan.Basic

/-! What a scan does with a row in hand, by what the writer of rows makes of it. -/
namespace TupleWire

/-- A failure to write a row, told with the key of the row if it has one. -/
def Error.ofRow (e : Error) (row : Row) : Error :=
  match row.key? with
  | some key => e.atRow key
  | none => e

theorem Error.kind_ofRow (e : Error) (row : Row) : (e.ofRow row).kind = e.kind := by
  cases row with
  | nil => rfl
  | cons cell cells => rfl

namespace Scan

variable {σ ω : Type} [Source σ ω] {scan : Scan σ} {row : Row} {buf next : Buffer} {world : ω}

theorem encode_of_ok {length : Nat}
    (h : (Write.putRow row scan.heading.columns).on buf = (.ok length, next)) :
    scan.encode row buf world =
      { result := .ok true, scan := { scan with rows := scan.rows + 1 }, buf := next, world } := by
  rw [encode, h]

theorem encode_of_retryable {e : Error}
    (h : (Write.putRow row scan.heading.columns).on buf = (.error e, next))
    (retryable : e.retryable = true) :
    scan.encode row buf world =
      { result := .error (e.ofRow row), scan := { scan with held := some row }, buf := next
        world } := by
  rw [encode, h]
  simp only
  rw [if_pos retryable]
  rfl

theorem encode_of_fatal {e : Error}
    (h : (Write.putRow row scan.heading.columns).on buf = (.error e, next))
    (fatal : e.retryable = false) :
    scan.encode row buf world =
      { result := .error (e.ofRow row), scan := (scan.fail e.kind world).1, buf := next
        world := (scan.fail e.kind world).2 } := by
  rw [encode, h]
  simp only
  rw [if_neg (by simp [fatal])]
  rfl

/-- The three ways in which a row in hand is dealt with. -/
@[elab_as_elim]
theorem encode_cases (scan : Scan σ) (row : Row) (buf : Buffer) (world : ω)
    {motive : Turn σ ω → Prop}
    (written : ∀ frame : Bytes,
      (Write.putRow row scan.heading.columns).on buf = (.ok frame.length, buf.append frame) →
      motive { result := .ok true, scan := { scan with rows := scan.rows + 1 }
               buf := buf.append frame, world })
    (put_back : ∀ e : Error,
      (Write.putRow row scan.heading.columns).on buf = (.error e, buf) → e.retryable = true →
      motive { result := .error (e.ofRow row), scan := { scan with held := some row }, buf, world })
    (failed : ∀ e : Error,
      (Write.putRow row scan.heading.columns).on buf = (.error e, buf) → e.retryable = false →
      motive { result := .error (e.ofRow row), scan := (scan.fail e.kind world).1, buf
               world := (scan.fail e.kind world).2 }) :
    motive (scan.encode row buf world) := by
  rcases Write.on_putRow row scan.heading.columns buf with laid | ⟨e, refused⟩
  · rw [encode_of_ok laid]
    exact written _ laid
  · cases retryable : e.retryable with
    | true =>
        rw [encode_of_retryable refused retryable]
        exact put_back e refused retryable
    | false =>
        rw [encode_of_fatal refused retryable]
        exact failed e refused retryable

theorem world_encode (scan : Scan σ) (row : Row) (buf : Buffer) (world : ω) :
    (scan.encode row buf world).world = world ∨
      (scan.encode row buf world).world = (scan.close world).2 := by
  refine encode_cases scan row buf world ?_ ?_ ?_
  · intro frame _
    exact .inl rfl
  · intro e _ _
    exact .inl rfl
  · intro e _ _
    exact .inr rfl

section Call

variable {source : σ}

theorem writeNext_of_finished (finished : scan.phase = .exhausted ∨ scan.phase = .closed) :
    scan.writeNext buf world = { result := .ok false, scan, buf, world } := by
  rcases finished with exhausted | closed
  · rw [writeNext, exhausted]
  · rw [writeNext, closed]

theorem writeNext_of_aborted {after : FaultKind} (aborted : scan.phase = .aborted after) :
    scan.writeNext buf world =
      { result := .error { fault := .scanAborted after }, scan, buf, world } := by
  rw [writeNext, aborted]

theorem writeNext_of_released (running : scan.phase = .running) (released : scan.source = none) :
    scan.writeNext buf world =
      { result := .ok false, scan := { scan with phase := .exhausted }, buf, world } := by
  rw [writeNext, running, released]

theorem writeNext_of_held (running : scan.phase = .running) (present : scan.source = some source)
    (held : scan.held = some row) :
    scan.writeNext buf world = { scan with held := none }.encode row buf world := by
  rw [writeNext, running, present, held]

theorem writeNext_of_row (running : scan.phase = .running) (present : scan.source = some source)
    (free : scan.held = none) (fetched : (Source.fetch source world).result = .ok (some row)) :
    scan.writeNext buf world =
      { scan with source := some (Source.fetch source world).source }.encode row buf
        (Source.fetch source world).world := by
  rw [writeNext, running, present, free]
  simp only
  rw [fetched]

theorem writeNext_of_end (running : scan.phase = .running) (present : scan.source = some source)
    (free : scan.held = none) (fetched : (Source.fetch source world).result = .ok none) :
    scan.writeNext buf world =
      { result := .ok false, buf, world := (Source.fetch source world).world
        scan := { scan with
          source := some (Source.fetch source world).source, phase := .exhausted } } := by
  rw [writeNext, running, present, free]
  simp only
  rw [fetched]

theorem writeNext_of_failure {e : Error} (running : scan.phase = .running)
    (present : scan.source = some source) (free : scan.held = none)
    (fetched : (Source.fetch source world).result = .error e) :
    scan.writeNext buf world =
      let failed := { scan with source := some (Source.fetch source world).source }.fail e.kind
        (Source.fetch source world).world
      { result := .error e, scan := failed.1, buf, world := failed.2 } := by
  rw [writeNext, running, present, free]
  simp only
  rw [fetched]

/-- All that a call for the next row can do. -/
@[elab_as_elim]
theorem writeNext_cases (scan : Scan σ) (buf : Buffer) (world : ω) {motive : Turn σ ω → Prop}
    (finished : scan.phase = .exhausted ∨ scan.phase = .closed →
      motive { result := .ok false, scan, buf, world })
    (aborted : ∀ after, scan.phase = .aborted after →
      motive { result := .error { fault := .scanAborted after }, scan, buf, world })
    (released : scan.phase = .running → scan.source = none →
      motive { result := .ok false, scan := { scan with phase := .exhausted }, buf, world })
    (held : ∀ source row, scan.phase = .running → scan.source = some source →
      scan.held = some row → motive ({ scan with held := none }.encode row buf world))
    (fetched : ∀ source row, scan.phase = .running → scan.source = some source →
      scan.held = none → (Source.fetch source world).result = .ok (some row) →
      motive ({ scan with source := some (Source.fetch source world).source }.encode row buf
        (Source.fetch source world).world))
    (ended : ∀ source, scan.phase = .running → scan.source = some source → scan.held = none →
      (Source.fetch source world).result = .ok none →
      motive { result := .ok false, buf, world := (Source.fetch source world).world
               scan := { scan with
                 source := some (Source.fetch source world).source, phase := .exhausted } })
    (failed : ∀ source e, scan.phase = .running → scan.source = some source → scan.held = none →
      (Source.fetch source world).result = .error e →
      motive (
        let failed := { scan with source := some (Source.fetch source world).source }.fail e.kind
          (Source.fetch source world).world
        { result := .error e, scan := failed.1, buf, world := failed.2 })) :
    motive (scan.writeNext buf world) := by
  cases phase : scan.phase with
  | exhausted =>
      rw [writeNext_of_finished (.inl phase)]
      exact finished (.inl phase)
  | closed =>
      rw [writeNext_of_finished (.inr phase)]
      exact finished (.inr phase)
  | aborted after =>
      rw [writeNext_of_aborted phase]
      exact aborted after phase
  | running =>
      cases present : scan.source with
      | none =>
          rw [writeNext_of_released phase present]
          exact released phase present
      | some source =>
          cases holding : scan.held with
          | some row =>
              rw [writeNext_of_held phase present holding]
              exact held source row phase present holding
          | none =>
              rcases result : (Source.fetch source world).result with e | none | row
              · rw [writeNext_of_failure phase present holding result]
                exact failed source e phase present holding result
              · rw [writeNext_of_end phase present holding result]
                exact ended source phase present holding result
              · rw [writeNext_of_row phase present holding result]
                exact fetched source row phase present holding result

end Call

end Scan

end TupleWire
