import TupleWire.Proofs.Frame.Composing
import TupleWire.Proofs.Scan.Mirroring
import TupleWire.Proofs.Scan.Producing

/-! Two scans side by side. If what their sources give differs in nothing that the columns show,
then neither do the rows that the scans hold, and the answers to the same calls are the same. -/
namespace TupleWire

/-- Results of fetches that differ at most in what the columns do not show. -/
inductive SameFetched (list : List Column) :
    Except Error (Option Row) → Except Error (Option Row) → Prop
  | row {row other : Row} (same : Layout.SameShown row other list) :
      SameFetched list (.ok (some row)) (.ok (some other))
  | ended : SameFetched list (.ok none) (.ok none)
  | failed (e : Error) : SameFetched list (.error e) (.error e)

namespace SameFetched

variable {list : List Column} {result : Except Error (Option Row)}

theorem of_row {row : Row} (fetched : SameFetched list (.ok (some row)) result) :
    ∃ other, result = .ok (some other) ∧ Layout.SameShown row other list := by
  cases fetched with
  | row same => exact ⟨_, rfl, same⟩

theorem of_end (fetched : SameFetched list (.ok none) result) : result = .ok none := by
  cases fetched with
  | ended => rfl

theorem of_failure {e : Error} (fetched : SameFetched list (.error e) result) :
    result = .error e := by
  cases fetched with
  | failed => rfl

end SameFetched

/-- Sources that are paired stay so when they are fetched from, and give the same as far as the
columns show it. Their worlds have no part in it: others may act on them between two calls. -/
structure Pairing (σ ω ρ υ : Type) [Source σ ω] [Source ρ υ] (heading : Heading) where
  sources : σ → ρ → Prop
  fetch {source : σ} {other : ρ} (paired : sources source other) (world : ω) (apart : υ) :
    SameFetched heading.columns (Source.fetch source world).result
        (Source.fetch other apart).result ∧
      sources (Source.fetch source world).source (Source.fetch other apart).source

theorem Error.ofRow_congr {row other : Row} {list : List Column}
    (same : Layout.SameShown row other list) (e : Error) : e.ofRow other = e.ofRow row := by
  rw [ofRow, same.key, ofRow]

section Rel

variable {α β : Type} {r : α → β → Prop} {b : Option β}

theorem none_of_rel (related : Option.Rel r none b) : b = none := by
  cases related with
  | none => rfl

theorem exists_of_rel {a : α} (related : Option.Rel r (some a) b) : ∃ c, b = some c ∧ r a c := by
  cases related with
  | some here => exact ⟨_, rfl, here⟩

end Rel

namespace Pairing

variable {σ ω ρ υ : Type} [Source σ ω] [Source ρ υ] {heading : Heading}

/-- Scans of paired sources that are equally far and hold the same, as far as the columns show. -/
structure Scans (pairing : Pairing σ ω ρ υ heading) (scan : Scan σ) (other : Scan ρ) : Prop where
  source : Option.Rel pairing.sources scan.source other.source
  held : Option.Rel (Layout.SameShown · · heading.columns) scan.held other.held
  columns : scan.heading = heading ∧ other.heading = heading
  room : other.room = scan.room
  phase : other.phase = scan.phase
  rows : other.rows = scan.rows

structure Turns (pairing : Pairing σ ω ρ υ heading) (turn : Turn σ ω) (other : Turn ρ υ) :
    Prop where
  result : other.result = turn.result
  scans : pairing.Scans turn.scan other.scan
  buf : other.buf = turn.buf

structure Deliveries (pairing : Pairing σ ω ρ υ heading) (delivered : Delivered σ ω)
    (other : Delivered ρ υ) : Prop where
  result : other.result = delivered.result
  scans : pairing.Scans delivered.scan other.scan
  sink : other.sink = delivered.sink

def Handles (pairing : Pairing σ ω ρ υ heading) (handle : Handle σ ω) (other : Handle ρ υ) :
    Prop :=
  Option.Rel pairing.Scans handle.scan other.scan

variable {pairing : Pairing σ ω ρ υ heading} {scan : Scan σ} {other : Scan ρ}

theorem scans_start {source : σ} {twin : ρ} (paired : pairing.sources source twin) (room : Nat) :
    pairing.Scans (.start source heading room) (.start twin heading room) where
  source := .some paired
  held := .none
  columns := ⟨rfl, rfl⟩
  room := rfl
  phase := rfl
  rows := rfl

theorem Scans.close (scans : pairing.Scans scan other) (world : ω) (apart : υ) :
    pairing.Scans (scan.close world).1 (other.close apart).1 where
  source := .none
  held := .none
  columns := scans.columns
  room := scans.room
  phase := by
    simp only [Scan.close]
    rw [scans.phase]
  rows := scans.rows

theorem Scans.fail (scans : pairing.Scans scan other) (after : FaultKind) (world : ω) (apart : υ) :
    pairing.Scans (scan.fail after world).1 (other.fail after apart).1 :=
  { scans.close world apart with phase := rfl }

theorem Scans.fed (scans : pairing.Scans scan other) {source : σ} {twin : ρ}
    (paired : pairing.sources source twin) :
    pairing.Scans { scan with source := some source } { other with source := some twin } :=
  { scans with source := .some paired }

section Call

variable (scans : pairing.Scans scan other) (buf : Buffer) (world : ω) (apart : υ)
include scans

theorem Scans.encode {row twin : Row} (same : Layout.SameShown row twin heading.columns) :
    pairing.Turns (scan.encode row buf world) (other.encode twin buf apart) := by
  have written : (Write.putRow twin other.heading.columns).on buf =
      (Write.putRow row scan.heading.columns).on buf := by
    rw [scans.columns.1, scans.columns.2, Write.putRow_congr same]
  refine Scan.encode_cases scan row buf world ?_ ?_ ?_
  · intro frame laid
    rw [Scan.encode_of_ok (written.trans laid)]
    exact ⟨rfl, { scans with rows := congrArg (· + 1) scans.rows }, rfl⟩
  · intro e refused retryable
    rw [Scan.encode_of_retryable (written.trans refused) retryable, Error.ofRow_congr same]
    exact ⟨rfl, { scans with held := .some same }, rfl⟩
  · intro e refused fatal
    rw [Scan.encode_of_fatal (written.trans refused) fatal, Error.ofRow_congr same]
    exact ⟨rfl, scans.fail e.kind world apart, rfl⟩

theorem Scans.writeNext :
    pairing.Turns (scan.writeNext buf world) (other.writeNext buf apart) := by
  have phase := scans.phase
  refine Scan.writeNext_cases scan buf world ?_ ?_ ?_ ?_ ?_ ?_ ?_
  · intro finished
    rw [Scan.writeNext_of_finished (phase ▸ finished)]
    exact ⟨rfl, scans, rfl⟩
  · intro after aborted
    rw [Scan.writeNext_of_aborted (phase.trans aborted)]
    exact ⟨rfl, scans, rfl⟩
  · intro running released
    have gone : other.source = none := none_of_rel (released ▸ scans.source)
    rw [Scan.writeNext_of_released (phase.trans running) gone]
    exact ⟨rfl, { scans with phase := rfl }, rfl⟩
  · intro source row running present held
    obtain ⟨twin, there, -⟩ := exists_of_rel (present ▸ scans.source)
    obtain ⟨copy, holding, same⟩ := exists_of_rel (held ▸ scans.held)
    rw [Scan.writeNext_of_held (phase.trans running) there holding]
    have emptied : pairing.Scans { scan with held := none } { other with held := none } :=
      { scans with held := .none }
    exact emptied.encode buf world apart same
  · intro source row running present free fetched
    obtain ⟨twin, there, paired⟩ := exists_of_rel (present ▸ scans.source)
    obtain ⟨results, left⟩ := pairing.fetch paired world apart
    obtain ⟨copy, given, same⟩ := (fetched ▸ results).of_row
    rw [Scan.writeNext_of_row (phase.trans running) there (none_of_rel (free ▸ scans.held)) given]
    exact (scans.fed left).encode buf _ _ same
  · intro source running present free fetched
    obtain ⟨twin, there, paired⟩ := exists_of_rel (present ▸ scans.source)
    obtain ⟨results, left⟩ := pairing.fetch paired world apart
    have given := (fetched ▸ results).of_end
    rw [Scan.writeNext_of_end (phase.trans running) there (none_of_rel (free ▸ scans.held)) given]
    exact ⟨rfl, { scans.fed left with phase := rfl }, rfl⟩
  · intro source e running present free fetched
    obtain ⟨twin, there, paired⟩ := exists_of_rel (present ▸ scans.source)
    obtain ⟨results, left⟩ := pairing.fetch paired world apart
    have given := (fetched ▸ results).of_failure
    rw [Scan.writeNext_of_failure (phase.trans running) there (none_of_rel (free ▸ scans.held))
      given]
    exact ⟨rfl, (scans.fed left).fail e.kind (Source.fetch source world).world
      (Source.fetch twin apart).world, rfl⟩

omit buf in
theorem Scans.asked {turn : Turn σ ω} (called : scan.writeNext scan.freshBuf world = turn) :
    pairing.Turns turn (other.writeNext other.freshBuf apart) := by
  have own : other.freshBuf = scan.freshBuf := by
    rw [Scan.freshBuf, scans.room, Scan.freshBuf]
  rw [← called, own]
  exact scans.writeNext scan.freshBuf world apart

omit buf in
theorem Scans.deliverRows (sink : Sink) (tally : Tally) :
    pairing.Deliveries (scan.deliverRows sink world tally)
      (other.deliverRows sink apart tally) := by
  -- The rule of induction follows the one scan; the other and its world move along with it.
  refine Scan.deliverRows_induct
    (motive := fun scan sink world tally sent => ∀ (other : Scan ρ) (apart : υ),
      pairing.Scans scan other → pairing.Deliveries sent (other.deliverRows sink apart tally))
    ?_ ?_ ?_ ?_ ?_ ?_ scan sink world tally other apart scans
  · intro scan sink world tally turn e called failed other apart scans
    have turns := scans.asked world apart called
    rw [Scan.deliverRows_of_error rfl (turns.result.trans failed)]
    exact ⟨rfl, turns.scans, rfl⟩
  · intro scan sink world tally turn called ended other apart scans
    have turns := scans.asked world apart called
    rw [Scan.deliverRows_of_end rfl (turns.result.trans ended)]
    exact ⟨rfl, turns.scans, rfl⟩
  · intro scan sink world tally turn e called written wrapped other apart scans
    have turns := scans.asked world apart called
    rw [Scan.deliverRows_of_row rfl (turns.result.trans written), turns.buf, wrapped]
    exact ⟨rfl, turns.scans, rfl⟩
  · intro scan sink world tally turn message e after called written wrapped offered
      other apart scans
    have turns := scans.asked world apart called
    rw [Scan.deliverRows_of_row rfl (turns.result.trans written), turns.buf, wrapped]
    simp only
    rw [offered]
    exact ⟨rfl, turns.scans, rfl⟩
  · intro scan sink world tally turn message after called written wrapped offered other apart scans
    have turns := scans.asked world apart called
    rw [Scan.deliverRows_of_row rfl (turns.result.trans written), turns.buf, wrapped]
    simp only
    rw [offered]
    exact ⟨rfl, turns.scans, rfl⟩
  · intro scan sink world tally turn message after called written wrapped offered ih
      other apart scans
    have turns := scans.asked world apart called
    rw [Scan.deliverRows_of_row rfl (turns.result.trans written), turns.buf, wrapped]
    simp only
    rw [offered]
    exact ih _ _ turns.scans

omit buf in
theorem Scans.deliver (sink : Sink) :
    pairing.Deliveries (scan.deliver sink world) (other.deliver sink apart) := by
  have sent := scans.deliverRows world apart sink {}
  exact ⟨sent.result, sent.scans.close (scan.deliverRows sink world {}).world
    (other.deliverRows sink apart {}).world, sent.sink⟩

end Call

theorem Handles.call {handle : Handle σ ω} {twin : Handle ρ υ}
    (handles : pairing.Handles handle twin) (call : Call) :
    (twin.call call).1 = (handle.call call).1 ∧
      pairing.Handles (handle.call call).2 (twin.call call).2 := by
  obtain ⟨scan, world⟩ := handle
  obtain ⟨other, apart⟩ := twin
  cases handles with
  | none =>
      cases call with
      | drop => exact ⟨rfl, .none⟩
      | _ => exact ⟨rfl, .none⟩
  | some scans =>
      cases call with
      | next =>
          have turns := scans.asked world apart rfl
          refine ⟨?_, .some turns.scans⟩
          rw [Handle.call_next rfl, Handle.call_next rfl, turns.result, turns.buf]
      | writeNext buf =>
          have turns := scans.writeNext buf world apart
          exact ⟨congrArg₂ Answer.written turns.result turns.buf, .some turns.scans⟩
      | close => exact ⟨rfl, .some (scans.close world apart)⟩
      | deliver answers =>
          have sent := scans.deliver world apart { answers }
          exact ⟨congrArg₂ Answer.delivered sent.result (congrArg Sink.offered sent.sink),
            .some sent.scans⟩
      | drop => exact ⟨rfl, .none⟩

/-- The answers to any calls are the same, in whatever worlds the calls are made. -/
theorem Handles.run {handle : Handle σ ω} {twin : Handle ρ υ}
    (handles : pairing.Handles handle twin) (calls : List Call) :
    (twin.run calls).1 = (handle.run calls).1 ∧
      pairing.Handles (handle.run calls).2 (twin.run calls).2 := by
  induction calls generalizing handle twin with
  | nil => exact ⟨rfl, handles⟩
  | cons call calls ih =>
      obtain ⟨answer, after⟩ := handles.call call
      obtain ⟨answers, last⟩ := ih after
      rw [Handle.run_cons, Handle.run_cons, answer, answers]
      exact ⟨rfl, last⟩

end Pairing

end TupleWire
