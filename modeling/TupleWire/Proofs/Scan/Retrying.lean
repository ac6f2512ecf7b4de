import TupleWire.Proofs.Scan.Pulling
import TupleWire.Proofs.Scan.Watching

/-! Failures for want of room. A scan keeps a row that did not fit, and the next call tries it
again. A failure of the source can be of the same kind, and it ends the scan. -/
namespace TupleWire

def Answer.failure? : Answer → Option Error
  | .frame (.error e) => some e
  | .written (.error e) _ => some e
  | _ => none

theorem Pull.failure?_answer {σ ω : Type} (pull : Pull) (turn : Turn σ ω) (e : Error) :
    (pull.answer turn).failure? = some e ↔ turn.result = .error e := by
  obtain ⟨result, scan, buf, world⟩ := turn
  have same {other : Error} : some other = some e ↔ (.error other : Except Error Bool) = .error e :=
    ⟨fun told => congrArg Except.error (Option.some.inj told),
      fun told => congrArg some (Except.error.inj told)⟩
  cases pull with
  | next =>
      cases result with
      | error other => exact same
      | ok more => exact ⟨nofun, nofun⟩
  | into buf =>
      cases result with
      | error other => exact same
      | ok more => exact ⟨nofun, nofun⟩

theorem Turn.Encodes.unchanged {σ ω : Type} {turn : Turn σ ω} {list : List Column} {row : Row}
    {buf : Buffer} {e : Error} (encodes : turn.Encodes list row buf)
    (failed : turn.result = .error e) : turn.buf = buf := by
  unfold Turn.Encodes at encodes
  split at encodes
  · cases failed.symm.trans encodes.1
  · exact encodes.2

variable {σ ω : Type} [Source σ ω]

namespace Scan

theorem encode_of_retryable_result {scan : Scan σ} {row : Row} {buf : Buffer} {world : ω}
    {e : Error} (failed : (scan.encode row buf world).result = .error e)
    (retryable : e.retryable = true) :
    scan.encode row buf world =
      { result := .error e, scan := { scan with held := some row }, buf, world } := by
  revert failed
  refine encode_cases scan row buf world ?_ ?_ ?_
  · intro frame _ failed
    cases failed
  · intro cause _ _ failed
    cases failed
    rfl
  · intro cause _ fatal failed
    cases failed
    rw [Error.retryable, cause.kind_ofRow, ← Error.retryable, fatal] at retryable
    cases retryable

theorem writeNext_again (scan : Scan σ) (running : scan.phase = .running)
    (present : scan.source.isSome = true) {row : Row} (held : scan.held = some row) (buf : Buffer)
    (world : ω) : scan.writeNext buf world = { scan with held := none }.encode row buf world := by
  obtain ⟨source, here⟩ := Option.isSome_iff_exists.mp present
  exact writeNext_of_held running here held

/-- The turn has left a row in front of the scan that it could not write. -/
structure PutsBack (turn : Turn σ ω) (row : Row) (buf : Buffer) : Prop where
  running : turn.scan.phase = .running
  present : turn.scan.source.isSome = true
  held : turn.scan.held = some row
  encodes : turn.Encodes turn.scan.heading.columns row buf

theorem putsBack_encode {scan : Scan σ} {row : Row} {buf : Buffer} {world : ω} {e : Error}
    (running : scan.phase = .running) (present : scan.source.isSome = true)
    (failed : (scan.encode row buf world).result = .error e) (retryable : e.retryable = true) :
    PutsBack (scan.encode row buf world) row buf := by
  have encodes := encode_encodes scan row buf world
  rw [encode_of_retryable_result failed retryable] at encodes ⊢
  exact ⟨running, present, rfl, encodes⟩

/-- Such a failure is one of the source, or the row that was tried is put back. -/
theorem retryable_writeNext (scan : Scan (Watched σ)) (buf : Buffer) (world : ω) {e : Error}
    (failed : (scan.writeNext buf (world, [])).result = .error e) (retryable : e.retryable = true) :
    let turn := scan.writeNext buf (world, [])
    (.fetched (.error e) ∈ turn.world.2 ∧ turn.scan.held = none) ∨
      (.fetched (.error e) ∉ turn.world.2 ∧ ∃ row, PutsBack turn row buf) := by
  revert failed
  refine writeNext_cases scan buf (world, []) ?_ ?_ ?_ ?_ ?_ ?_ ?_
  · intro finished failed
    cases failed
  · intro after aborted failed
    cases failed
    cases retryable
  · intro running released failed
    cases failed
  · intro source row running present held failed
    let taken : Scan (Watched σ) := { scan with held := none }
    have here : taken.source.isSome = true := congrArg Option.isSome present
    refine .inr ⟨?_, row, putsBack_encode running here failed retryable⟩
    rw [encode_of_retryable_result failed retryable]
    nofun
  · intro source row running present free fetched failed
    refine .inr ⟨?_, row, putsBack_encode running rfl failed retryable⟩
    rw [encode_of_retryable_result failed retryable]
    simp only
    rw [Watched.log_fetch, fetched]
    simp
  · intro source running present free fetched failed
    cases failed
  · intro source other running present free fetched failed
    cases failed
    refine .inl ⟨?_, rfl⟩
    let after := Source.fetch source (world, [])
    have log : after.world.2 = [.fetched (.error e)] := by
      rw [Watched.log_fetch, fetched]
      rfl
    have member : .fetched (.error e) ∈ after.world.2 := log ▸ List.mem_singleton_self _
    exact List.mem_append_left _ member

theorem fetches_encode_watched (scan : Scan (Watched σ)) (row : Row) (buf : Buffer)
    (world : ω × List Contact) :
    (scan.encode row buf world).world.2.countP Contact.isFetch =
      world.2.countP Contact.isFetch := by
  rcases scan.world_encode row buf world with same | closed
  · rw [same]
  · rw [closed]
    exact scan.fetches_close world

end Scan

/-- The call leaves the row that it tried in front of the scan, and the buffer as it was; any
next call for a row tries that row, and does not ask the source for another. -/
structure Scan.Retries (scan : Scan σ) (world : ω) (pull : Pull) (last : Scan σ) (row : Row) :
    Prop where
  present : (Handle.call ⟨some scan, world⟩ pull.call).2.scan = some last
  held : last.held = some row
  unreleased : last.isReleased = false
  tried : ∃ turn : Turn σ ω, (Handle.call ⟨some scan, world⟩ pull.call).1 = pull.answer turn ∧
    turn.Encodes last.heading.columns row (pull.buffer scan)
  unchanged : ∀ buf, pull = .into buf →
    ∃ result, (Handle.call ⟨some scan, world⟩ pull.call).1 = .written result buf
  again : ∀ later : Pull, ∃ turn : Turn σ ω,
    ((Handle.call ⟨some scan, world⟩ pull.call).2.call later.call).1 = later.answer turn ∧
      turn.Encodes last.heading.columns row (later.buffer last)
  unasked : ∀ later : Pull,
    (Handle.contacts ⟨some scan, world⟩ [pull.call, later.call]).countP Contact.isFetch =
      (Handle.contacts ⟨some scan, world⟩ [pull.call]).countP Contact.isFetch

theorem Pull.call_watched (pull : Pull) (scan : Scan σ) (world : ω) :
    let turn := scan.watched.writeNext (pull.buffer scan) (world, [])
    Handle.call ⟨some scan, world⟩ pull.call =
        (pull.answer (Watched.mirror.turn turn),
          ⟨some (Watched.mirror.scan turn.scan), turn.world.1⟩) ∧
      ∀ later, Handle.contacts ⟨some scan, world⟩ (pull.call :: later) =
        (Handle.run ⟨some turn.scan, turn.world⟩ later).2.world.2 := by
  constructor
  · have mirrored := Watched.mirror.writeNext scan.watched (pull.buffer scan) (world, [])
    rw [scan.mirror_watched] at mirrored
    have same : scan.writeNext (pull.buffer scan) world = Watched.mirror.turn _ := mirrored
    rw [pull.call_eq, same]
    rfl
  · intro later
    have same : pull.buffer scan.watched = pull.buffer scan := by
      cases pull with
      | _ => rfl
    have called := pull.call_eq scan.watched (world, [])
    rw [same] at called
    exact congrArg (fun called : Answer × Handle (Watched σ) (ω × List Contact) =>
      (called.2.run later).2.world.2) called

theorem Scan.retries_of_putsBack {scan : Scan σ} {world : ω} {pull : Pull} {row : Row} {e : Error}
    (failed : (scan.watched.writeNext (pull.buffer scan) (world, [])).result = .error e)
    (back : PutsBack (scan.watched.writeNext (pull.buffer scan) (world, [])) row
      (pull.buffer scan)) :
    ∃ last, scan.Retries world pull last row := by
  obtain ⟨called, contacts⟩ := pull.call_watched scan world
  generalize scan.watched.writeNext (pull.buffer scan) (world, []) = turn at *
  let last : Scan σ := Watched.mirror.scan turn.scan
  have present : last.source.isSome = true := Option.isSome_map.trans back.present
  refine ⟨last, ?_⟩
  constructor
  · rw [called]
  · exact back.held
  · rw [isReleased, ← Option.not_isSome, present]
    rfl
  · exact ⟨Watched.mirror.turn turn, congrArg Prod.fst called, back.encodes⟩
  · rintro buf rfl
    have kept : turn.buf = buf := back.encodes.unchanged failed
    refine ⟨turn.result, ?_⟩
    rw [called]
    exact congrArg (Answer.written _) kept
  · intro later
    have tried := last.writeNext_again back.running present back.held (later.buffer last)
      turn.world.1
    have encodes := encode_encodes { last with held := none } row (later.buffer last) turn.world.1
    refine ⟨_, ?_, encodes⟩
    rw [called, later.call_eq, tried]
  · intro later
    rw [contacts, contacts, Handle.run_cons, later.call_eq]
    simp only [Handle.run]
    rw [turn.scan.writeNext_again back.running back.present back.held]
    exact fetches_encode_watched _ _ _ _

/-- After a failure for want of room the call can be repeated, unless it is the source that has
failed. Sources are finite lists of outcomes (see `Source`). -/
theorem retries_iff (scan : Scan σ) (world : ω) (pull : Pull) (e : Error)
    (failed : (Handle.call ⟨some scan, world⟩ pull.call).1.failure? = some e)
    (retryable : e.retryable = true) :
    (∃ last row, scan.Retries world pull last row) ↔
      .fetched (.error e) ∉ Handle.contacts ⟨some scan, world⟩ [pull.call] := by
  obtain ⟨called, contacts⟩ := pull.call_watched scan world
  rw [called, pull.failure?_answer] at failed
  rw [contacts]
  rcases Scan.retryable_writeNext scan.watched (pull.buffer scan) world failed retryable with
    ⟨said, free⟩ | ⟨unsaid, row, back⟩
  · refine iff_of_false ?_ (not_not_intro said)
    rintro ⟨last, row, retries⟩
    have same := retries.present
    rw [called] at same
    cases same
    cases free.symm.trans retries.held
  · obtain ⟨last, retries⟩ := Scan.retries_of_putsBack failed back
    exact iff_of_true ⟨last, row, retries⟩ unsaid

/-- A row that is too long for the room of the scan. -/
theorem retries_iff_full :
    let script : Script := { results := [.ok (some [⟨[107], [102], [113], [118]⟩])] }
    let scan := Scan.start script ⟨[.rowKey], by decide⟩ 16
    let e : Error := { fault := .bufferFull 4 0, rowKey := some [107], offset := some 16 }
    (Handle.call ⟨some scan, {}⟩ Pull.next.call).1.failure? = some e ∧ e.retryable = true ∧
      ∃ last row, scan.Retries {} .next last row := by
  intro script scan e
  have failed : (Handle.call ⟨some scan, {}⟩ Pull.next.call).1.failure? = some e := by
    decide +kernel
  have rows : (Handle.contacts ⟨some scan, {}⟩ [Pull.next.call]).all Contact.givesRow = true := by
    decide +kernel
  have kept := retries_iff scan ({} : Traffic) .next e failed rfl
  refine ⟨failed, rfl, kept.mpr fun said => ?_⟩
  cases List.all_eq_true.mp rows _ said

/-- A source that fails for want of room of its own. The failure is told to be of the kind that
can be tried again, but no row is held and the source is released. -/
theorem not_retries_of_failed_source :
    let e : Error := { fault := .reported .capacity none none }
    let script : Script := { results := [.error e] }
    let scan := Scan.start script ⟨[.rowKey], by decide⟩ 64
    (Handle.call ⟨some scan, {}⟩ Pull.next.call).1.failure? = some e ∧ e.retryable = true ∧
      ¬ ∃ last row, scan.Retries {} .next last row := by
  intro e script scan
  refine ⟨rfl, rfl, ?_⟩
  rintro ⟨last, row, retries⟩
  cases retries.present
  cases retries.held

end TupleWire
