import TupleWire.Proofs.Scan.Delivering
import TupleWire.Proofs.Scan.Encoding
import TupleWire.Scan.History

/-! Sources that do the same. If fetches and releases keep a map of sources and worlds, then a
scan of the one source and a scan of its image give the same answers to the same calls. -/
namespace TupleWire

namespace Handle

variable {σ ω : Type} [Source σ ω]

theorem run_cons (handle : Handle σ ω) (call : Call) (calls : List Call) :
    handle.run (call :: calls) =
      ((handle.call call).1 :: ((handle.call call).2.run calls).1,
        ((handle.call call).2.run calls).2) := rfl

theorem run_concat (handle : Handle σ ω) (calls : List Call) (call : Call) :
    (handle.run (calls ++ [call])).2 = ((handle.run calls).2.call call).2 := by
  induction calls generalizing handle with
  | nil => rfl
  | cons first calls ih =>
      rw [List.cons_append, run_cons, run_cons]
      exact ih (handle.call first).2

end Handle

/-- A map of sources and of their worlds that fetches and releases keep. -/
structure Mirror (σ ω ρ υ : Type) [Source σ ω] [Source ρ υ] where
  source : σ → ρ
  world : ω → υ
  fetch (s : σ) (w : ω) : Source.fetch (source s) (world w) =
    { result := (Source.fetch s w).result, source := source (Source.fetch s w).source
      world := world (Source.fetch s w).world }
  release (s : σ) (w : ω) :
    (Source.release (source s) (world w)).world = world (Source.release s w).world

namespace Mirror

variable {σ ω ρ υ : Type} [Source σ ω] [Source ρ υ] (mirror : Mirror σ ω ρ υ)

def scan (scan : Scan σ) : Scan ρ :=
  { source := scan.source.map mirror.source, heading := scan.heading, room := scan.room
    held := scan.held, phase := scan.phase, rows := scan.rows }

def turn (turn : Turn σ ω) : Turn ρ υ :=
  { result := turn.result, scan := mirror.scan turn.scan, buf := turn.buf
    world := mirror.world turn.world }

def delivered (delivered : Delivered σ ω) : Delivered ρ υ :=
  { result := delivered.result, scan := mirror.scan delivered.scan, sink := delivered.sink
    world := mirror.world delivered.world }

def handle (handle : Handle σ ω) : Handle ρ υ :=
  ⟨handle.scan.map mirror.scan, mirror.world handle.world⟩

section Scan

variable (scan : Scan σ) (row : Row) (buf : Buffer) (world : ω)

theorem close :
    (mirror.scan scan).close (mirror.world world) =
      (mirror.scan (scan.close world).1, mirror.world (scan.close world).2) := by
  obtain ⟨source, heading, room, held, phase, rows⟩ := scan
  cases source with
  | none => rfl
  | some source => exact congrArg (Prod.mk _) (mirror.release source world)

theorem fail (after : FaultKind) :
    (mirror.scan scan).fail after (mirror.world world) =
      (mirror.scan (scan.fail after world).1, mirror.world (scan.fail after world).2) := by
  rw [Scan.fail, close]
  rfl

theorem encode :
    (mirror.scan scan).encode row buf (mirror.world world) =
      mirror.turn (scan.encode row buf world) := by
  have list : scan.heading.columns = (mirror.scan scan).heading.columns := rfl
  refine Scan.encode_cases scan row buf world ?_ ?_ ?_
  · intro frame laid
    rw [list] at laid
    rw [Scan.encode_of_ok laid]
    rfl
  · intro e refused retryable
    rw [list] at refused
    rw [Scan.encode_of_retryable refused retryable]
    rfl
  · intro e refused fatal
    rw [list] at refused
    rw [Scan.encode_of_fatal refused fatal, fail]
    rfl

theorem writeNext :
    (mirror.scan scan).writeNext buf (mirror.world world) =
      mirror.turn (scan.writeNext buf world) := by
  have phase : (mirror.scan scan).phase = scan.phase := rfl
  have given : ∀ source, scan.source = some source →
      (mirror.scan scan).source = some (mirror.source source) :=
    fun source present => congrArg (Option.map mirror.source) present
  have result : ∀ source, (Source.fetch (mirror.source source) (mirror.world world)).result =
      (Source.fetch source world).result := by
    intro source
    rw [mirror.fetch]
  refine Scan.writeNext_cases scan buf world ?_ ?_ ?_ ?_ ?_ ?_ ?_
  · intro finished
    rw [Scan.writeNext_of_finished (phase ▸ finished)]
    rfl
  · intro after aborted
    rw [Scan.writeNext_of_aborted (phase ▸ aborted)]
    rfl
  · intro running released
    rw [Scan.writeNext_of_released (phase ▸ running)
      (congrArg (Option.map mirror.source) released)]
    rfl
  · intro source row running present held
    rw [Scan.writeNext_of_held (phase ▸ running) (given source present) held]
    exact mirror.encode { scan with held := none } row buf world
  · intro source row running present free fetched
    rw [Scan.writeNext_of_row (phase ▸ running) (given source present) free
      ((result source).trans fetched), mirror.fetch]
    exact mirror.encode { scan with source := some (Source.fetch source world).source } row buf _
  · intro source running present free fetched
    rw [Scan.writeNext_of_end (phase ▸ running) (given source present) free
      ((result source).trans fetched), mirror.fetch]
    rfl
  · intro source e running present free fetched
    rw [Scan.writeNext_of_failure (phase ▸ running) (given source present) free
      ((result source).trans fetched), mirror.fetch]
    have failed :=
      mirror.fail { scan with source := some (Source.fetch source world).source }
        (Source.fetch source world).world e.kind
    exact congrArg (fun failed : Scan ρ × υ =>
      ({ result := .error e, scan := failed.1, buf, world := failed.2 } : Turn ρ υ)) failed

theorem deliverRows (sink : Sink) (tally : Tally) :
    (mirror.scan scan).deliverRows sink (mirror.world world) tally =
      mirror.delivered (scan.deliverRows sink world tally) := by
  have asked : ∀ (scan : Scan σ) world turn, scan.writeNext scan.freshBuf world = turn →
      (mirror.scan scan).writeNext (mirror.scan scan).freshBuf (mirror.world world) =
        mirror.turn turn := by
    rintro scan world turn rfl
    exact mirror.writeNext scan scan.freshBuf world
  refine Scan.deliverRows_induct
    (motive := fun scan sink world tally sent =>
      (mirror.scan scan).deliverRows sink (mirror.world world) tally = mirror.delivered sent)
    ?_ ?_ ?_ ?_ ?_ ?_ scan sink world tally
  · intro scan sink world tally turn e called failed
    rw [Scan.deliverRows_of_error (asked scan world turn called) failed]
    rfl
  · intro scan sink world tally turn called ended
    rw [Scan.deliverRows_of_end (asked scan world turn called) ended]
    rfl
  · intro scan sink world tally turn e called written wrapped
    rw [Scan.deliverRows_of_row (asked scan world turn called) written, Mirror.turn, wrapped]
    rfl
  · intro scan sink world tally turn message e after called written wrapped offered
    rw [Scan.deliverRows_of_row (asked scan world turn called) written, Mirror.turn, wrapped]
    simp only
    rw [offered]
    rfl
  · intro scan sink world tally turn message after called written wrapped offered
    rw [Scan.deliverRows_of_row (asked scan world turn called) written, Mirror.turn, wrapped]
    simp only
    rw [offered]
    rfl
  · intro scan sink world tally turn message after called written wrapped offered ih
    rw [Scan.deliverRows_of_row (asked scan world turn called) written, Mirror.turn, wrapped, ← ih]
    simp only
    rw [offered]

theorem deliver (sink : Sink) :
    (mirror.scan scan).deliver sink (mirror.world world) =
      mirror.delivered (scan.deliver sink world) := by
  rw [Scan.deliver, deliverRows]
  simp only [delivered, close]
  rfl

end Scan

theorem call (handle : Handle σ ω) (call : Call) :
    (mirror.handle handle).call call =
      ((handle.call call).1, mirror.handle (handle.call call).2) := by
  obtain ⟨scan, world⟩ := handle
  cases scan with
  | none =>
      cases call with
      | drop => rfl
      | _ => rfl
  | some scan =>
      cases call with
      | next =>
          have turn := mirror.writeNext scan scan.freshBuf world
          exact congrArg (fun turn : Turn ρ υ =>
            (Answer.frame (turn.result.map fun more => if more then some turn.buf.bytes else none),
              (⟨some turn.scan, turn.world⟩ : Handle ρ υ))) turn
      | writeNext buf =>
          have turn := mirror.writeNext scan buf world
          exact congrArg (fun turn : Turn ρ υ =>
            (Answer.written turn.result turn.buf,
              (⟨some turn.scan, turn.world⟩ : Handle ρ υ))) turn
      | close =>
          have closed := mirror.close scan world
          exact congrArg (fun closed : Scan ρ × υ =>
            (Answer.closed, (⟨some closed.1, closed.2⟩ : Handle ρ υ))) closed
      | deliver answers =>
          have delivered := mirror.deliver scan world { answers }
          exact congrArg (fun delivered : Delivered ρ υ =>
            (Answer.delivered delivered.result delivered.sink.offered,
              (⟨some delivered.scan, delivered.world⟩ : Handle ρ υ))) delivered
      | drop =>
          have closed := mirror.close scan world
          exact congrArg (fun closed : Scan ρ × υ =>
            (Answer.dropped, (⟨none, closed.2⟩ : Handle ρ υ))) closed

/-- The answers to any calls are the same. -/
theorem run (handle : Handle σ ω) (calls : List Call) :
    (mirror.handle handle).run calls =
      ((handle.run calls).1, mirror.handle (handle.run calls).2) := by
  induction calls generalizing handle with
  | nil => rfl
  | cons call calls ih =>
      rw [Handle.run_cons, Handle.run_cons, mirror.call, ih]

end Mirror

end TupleWire
