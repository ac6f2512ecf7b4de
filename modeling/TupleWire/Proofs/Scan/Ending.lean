import TupleWire.Proofs.Scan.Recording

/-! When the mark that a stream has ended is true. A scan that is closed offers the mark to
every delivery, and a failed delivery closes it too, whatever its source has left. -/
namespace TupleWire

/-- Calls that close a scan; what becomes of a dropped scan cannot be seen. -/
def Call.closes : Call → Bool
  | .close => true
  | .deliver _ => true
  | _ => false

def Answer.messages : Answer → List Bytes
  | .delivered _ messages => messages
  | _ => []

theorem Message.wrap_ne_endMark {frame message : Bytes} (h : wrap frame = .ok message) :
    message ≠ endMark := by
  rintro rfl
  unfold wrap at h
  split at h
  · cases h
  · next word rest _ =>
      have tags : takeWord? (rowTag.toBytes ++ rest) = takeWord? (endTag.toBytes ++ []) :=
        congrArg takeWord? (Except.ok.inj h)
      rw [takeWord?_append, takeWord?_append] at tags
      cases tags

theorem Sink.mem_offer {sink after : Sink} {message : Bytes} {receipt : Except Error Receipt}
    (offered : sink.offer message = (receipt, after)) (mark : Bytes) :
    mark ∈ after.offered ↔ mark ∈ sink.offered ∨ mark = message := by
  obtain ⟨-, -, log⟩ := of_offer offered
  rw [log, List.mem_append, List.mem_singleton]

variable {σ ω : Type} [Source σ ω]

namespace Scan

/-- What the phase of a scan tells of the calls before, and of the answers of its source. -/
def Tells (scan : Scan (Recorded σ)) (closed : Prop) (record : Record) : Prop :=
  match scan.phase with
  | .running => scan.source.isSome = true ∧ ¬ closed
  | .exhausted => .ok none ∈ record ∧ ¬ closed
  | .closed => closed
  | .aborted _ => True

/-- A call finds no row only where the record has the end of the data, or where the scan
was closed. -/
structure Candid (phase : Phase) (closed : Prop) (turn : Turn (Recorded σ) (ω × Record)) :
    Prop where
  tells : turn.scan.Tells closed turn.world.2
  ends : turn.result = .ok false → phase = .closed ∨ .ok none ∈ turn.world.2
  continues : turn.result = .ok true → turn.scan.phase = .running

variable {scan : Scan (Recorded σ)} {world : ω × Record} {closed : Prop}

theorem record_close (scan : Scan (Recorded σ)) (world : ω × Record) :
    (scan.close world).2.2 = world.2 := by
  obtain ⟨source, heading, room, held, phase, rows⟩ := scan
  cases source with
  | none => rfl
  | some source => rfl

theorem tells_close (scan : Scan (Recorded σ)) (world : ω × Record) (holds : closed)
    (record : Record) : (scan.close world).1.Tells closed record := by
  obtain ⟨source, heading, room, held, phase, rows⟩ := scan
  cases phase with
  | aborted after => exact trivial
  | _ => exact holds

theorem candid_encode (scan : Scan (Recorded σ)) (running : scan.phase = .running)
    (present : scan.source.isSome = true) (free : ¬ closed) (row : Row) (buf : Buffer)
    (world : ω × Record) : Candid scan.phase closed (scan.encode row buf world) := by
  have still (held : Option Row) (rows : Nat) :
      Tells { scan with held, rows } closed world.2 := by
    rw [Tells, running]
    exact ⟨present, free⟩
  refine encode_cases scan row buf world ?_ ?_ ?_
  · intro frame _
    exact ⟨still _ _, nofun, fun _ => running⟩
  · intro e _ _
    exact ⟨still _ _, nofun, nofun⟩
  · intro e _ _
    exact ⟨trivial, nofun, nofun⟩

theorem candid_writeNext (tells : scan.Tells closed world.2) (buf : Buffer) :
    Candid scan.phase closed (scan.writeNext buf world) := by
  refine writeNext_cases scan buf world ?_ ?_ ?_ ?_ ?_ ?_ ?_
  · intro finished
    refine ⟨tells, fun _ => ?_, nofun⟩
    rcases finished with exhausted | finished
    · rw [Tells, exhausted] at tells
      exact .inr tells.1
    · exact .inl finished
  · intro after aborted
    exact ⟨tells, nofun, nofun⟩
  · intro running released
    rw [Tells, running, released] at tells
    cases tells.1
  · intro source row running present held
    rw [Tells, running] at tells
    exact candid_encode { scan with held := none } running tells.1 tells.2 row buf world
  · intro source row running present free fetched
    rw [Tells, running] at tells
    exact candid_encode { scan with source := some (Source.fetch source world).source } running
      rfl tells.2 row buf _
  · intro source running present free fetched
    rw [Tells, running] at tells
    have record : (Source.fetch source world).world.2 =
      world.2 ++ [(Source.fetch source world).result] := rfl
    have said : .ok none ∈ (Source.fetch source world).world.2 := by
      rw [record, fetched]
      exact List.mem_append_right _ (List.mem_singleton_self _)
    exact ⟨⟨said, tells.2⟩, fun _ => .inr said, nofun⟩
  · intro source e running present free fetched
    exact ⟨trivial, nofun, nofun⟩

/-- The mark is offered only after the record has the end of the data, or by a closed scan. -/
theorem true_deliverRows (tells : scan.Tells closed world.2) (sink : Sink) (tally : Tally)
    (marked : Message.endMark ∈ (scan.deliverRows sink world tally).sink.offered) :
    Message.endMark ∈ sink.offered ∨ scan.phase = .closed ∨
      .ok none ∈ (scan.deliverRows sink world tally).world.2 := by
  have candid : ∀ {scan : Scan (Recorded σ)} {world : ω × Record} {turn},
      scan.writeNext scan.freshBuf world = turn → scan.Tells closed world.2 →
      Candid scan.phase closed turn := by
    rintro scan world turn rfl tells
    exact candid_writeNext tells scan.freshBuf
  have before : ∀ {sink after : Sink} {frame message : Bytes} {receipt},
      Message.wrap frame = .ok message → sink.offer message = (receipt, after) →
      Message.endMark ∈ after.offered → Message.endMark ∈ sink.offered := by
    intro sink after frame message receipt wrapped offered marked
    rcases (Sink.mem_offer offered _).mp marked with before | same
    · exact before
    · exact absurd same.symm (Message.wrap_ne_endMark wrapped)
  revert tells marked
  refine deliverRows_induct
    (motive := fun scan sink world _ sent => scan.Tells closed world.2 →
      Message.endMark ∈ sent.sink.offered →
      Message.endMark ∈ sink.offered ∨ scan.phase = .closed ∨ .ok none ∈ sent.world.2)
    ?_ ?_ ?_ ?_ ?_ ?_ scan sink world tally
  · intro scan sink world tally turn e asked failed tells marked
    exact .inl marked
  · intro scan sink world tally turn asked ended tells marked
    exact .inr ((candid asked tells).ends ended)
  · intro scan sink world tally turn e asked written _ tells marked
    exact .inl marked
  · intro scan sink world tally turn message e after asked written wrapped offered tells marked
    exact .inl (before wrapped offered marked)
  · intro scan sink world tally turn message after asked written wrapped offered tells marked
    exact .inl (before wrapped offered marked)
  · intro scan sink world tally turn message after asked written wrapped offered ih tells marked
    have step := candid asked tells
    rcases ih step.tells marked with sooner | closed | said
    · exact .inl (before wrapped offered sooner)
    · cases (step.continues written).symm.trans closed
    · exact .inr (.inr said)

theorem true_deliver (tells : scan.Tells closed world.2) (answers : List (Except Error Receipt))
    (marked : Message.endMark ∈ (scan.deliver { answers } world).sink.offered) :
    scan.phase = .closed ∨ .ok none ∈ (scan.deliver { answers } world).world.2 := by
  have record : (scan.deliver { answers } world).world.2 =
    (scan.deliverRows { answers } world {}).world.2 := record_close _ _
  rw [record]
  exact (true_deliverRows tells { answers } {} marked).resolve_left nofun

theorem mark_of_closed (finished : scan.phase = .closed) (world : ω × Record) (sink : Sink) :
    Message.endMark ∈ (scan.deliver sink world).sink.offered ∧
      (scan.deliver sink world).world.2 = world.2 := by
  have asked : scan.writeNext scan.freshBuf world = _ := writeNext_of_finished (.inr finished)
  have sent : scan.deliverRows sink world {} = _ := deliverRows_of_end asked rfl
  have offered : Message.endMark ∈ (sink.offer Message.endMark).2.offered :=
    (Sink.mem_offer rfl _).mpr (.inr rfl)
  rw [deliver, sent]
  exact ⟨offered, record_close scan world⟩

end Scan

namespace Handle

/-- The calls so far are told by the scan, unless they have dropped it. -/
def Tells (handle : Handle (Recorded σ) (ω × Record)) (calls : List Call) : Prop :=
  match handle.scan with
  | none => .drop ∈ calls
  | some scan =>
      .drop ∉ calls ∧ scan.Tells (calls.any Call.closes = true) handle.world.2

variable {scan : Scan (Recorded σ)} {world : ω × Record} {calls : List Call}

omit [Source σ ω] in
theorem tells_some (present : .drop ∉ calls) {call : Call} (kept : call ≠ .drop)
    (tells : scan.Tells ((calls ++ [call]).any Call.closes = true) world.2) :
    Handle.Tells ⟨some scan, world⟩ (calls ++ [call]) := by
  refine ⟨fun member => ?_, tells⟩
  rcases List.mem_append.mp member with before | last
  · exact present before
  · exact kept (List.mem_singleton.mp last).symm

theorem tells_call {handle : Handle (Recorded σ) (ω × Record)} (tells : handle.Tells calls)
    (call : Call) : (handle.call call).2.Tells (calls ++ [call]) := by
  obtain ⟨scan, world⟩ := handle
  cases scan with
  | none =>
      have dropped : Call.drop ∈ calls ++ [call] := List.mem_append_left _ tells
      cases call with
      | _ => exact dropped
  | some scan =>
      obtain ⟨present, tells⟩ := tells
      have any : (calls ++ [call]).any Call.closes = (calls.any Call.closes || call.closes) := by
        simp
      have closing (closes : call.closes = true) : (calls ++ [call]).any Call.closes = true := by
        rw [any, closes, Bool.or_true]
      have same (idle : call.closes = false) :
          calls.any Call.closes = (calls ++ [call]).any Call.closes := by
        rw [any, idle, Bool.or_false]
      cases call with
      | next =>
          rw [same rfl] at tells
          exact tells_some present nofun (Scan.candid_writeNext tells scan.freshBuf).tells
      | writeNext buf =>
          rw [same rfl] at tells
          exact tells_some present nofun (Scan.candid_writeNext tells buf).tells
      | close => exact tells_some present nofun (Scan.tells_close scan world (closing rfl) _)
      | deliver answers =>
          let rows := scan.deliverRows { answers } world {}
          have shut := Scan.tells_close rows.scan rows.world (closing rfl)
          exact tells_some present nofun (shut _)
      | drop => exact List.mem_append_right _ (List.mem_singleton_self _)

theorem tells_run {handle : Handle (Recorded σ) (ω × Record)} {before : List Call}
    (tells : handle.Tells before) (calls : List Call) :
    (handle.run calls).2.Tells (before ++ calls) := by
  induction calls generalizing handle before with
  | nil => exact (List.append_nil before).symm ▸ tells
  | cons call calls ih =>
      rw [run_cons, List.append_cons]
      exact ih (tells_call tells call)

/-- If the next delivery offers the mark that the stream has ended, then the source has
answered that the data is at its end. -/
def EndsTruly (handle : Handle σ ω) (calls : List Call) (answers : List (Except Error Receipt)) :
    Prop :=
  Message.endMark ∈ ((handle.run calls).2.call (.deliver answers)).1.messages →
    .ok none ∈ handle.answered (calls ++ [.deliver answers])

end Handle

/-- The mark is true up to the first call that closes the scan, and after it only where the
source had come to its end by then, or where a failure has ended the scan for good. Sources are
finite lists of outcomes (see `Source`). -/
theorem endsTruly_iff (source : σ) (world : ω) (heading : Heading) (room : Nat)
    (calls : List Call) (answers : List (Except Error Receipt)) :
    let handle : Handle σ ω := ⟨some (Scan.start source heading room), world⟩
    handle.EndsTruly calls answers ↔
      .drop ∈ calls ∨ calls.any Call.closes = false ∨
        (∃ scan after, (handle.run calls).2.scan = some scan ∧ scan.phase = .aborted after) ∨
          .ok none ∈ handle.answered calls := by
  intro handle
  have first : handle.recorded.Tells [] := ⟨nofun, rfl, nofun⟩
  have tells := Handle.tells_run first calls
  have plain := Handle.unrecorded_run handle.recorded calls
  rw [Handle.unrecorded_recorded] at plain
  rw [Handle.EndsTruly, Handle.answered, Handle.run_concat, Handle.answered, ← plain,
    ← Handle.unrecorded_call]
  simp only
  generalize (handle.recorded.run calls).2 = reached at tells
  rw [List.nil_append] at tells
  obtain ⟨scan, world⟩ := reached
  cases scan with
  | none => exact ⟨fun _ => .inl tells, fun _ => nofun⟩
  | some scan =>
      obtain ⟨present, tells⟩ := tells
      have sent := Scan.true_deliver tells answers
      have opened (phase : scan.phase ≠ .closed) (marked : Message.endMark ∈ _) :
          .ok none ∈ (scan.deliver { answers } world).world.2 :=
        (sent marked).resolve_left phase
      cases phase : scan.phase with
      | closed =>
          have offered := Scan.mark_of_closed phase world { answers }
          constructor
          · intro truly
            have said := truly offered.1
            exact .inr (.inr (.inr (offered.2 ▸ said)))
          · rintro (dropped | free | ⟨other, after, same, aborted⟩ | said) _
            · exact absurd dropped present
            · rw [Scan.Tells, phase] at tells
              cases tells.symm.trans free
            · cases same
              cases phase.symm.trans aborted
            · exact offered.2.symm ▸ said
      | running =>
          rw [Scan.Tells, phase] at tells
          exact iff_of_true (opened (by rw [phase]; nofun)) (.inr (.inl (by simpa using tells.2)))
      | exhausted =>
          rw [Scan.Tells, phase] at tells
          exact iff_of_true (opened (by rw [phase]; nofun)) (.inr (.inl (by simpa using tells.2)))
      | aborted after =>
          exact iff_of_true (opened (by rw [phase]; nofun))
            (.inr (.inr (.inl ⟨scan.unrecorded, after, rfl, phase⟩)))

/-- One row that is too long for the room of the scan. Its delivery fails, and the next
one offers the mark, while the source has not come to its end. -/
theorem not_endsTruly_after_full :
    let script : Script := { results := [.ok (some [⟨[107], [102], [113], [118]⟩])] }
    let handle : Handle Script Traffic :=
      ⟨some (Scan.start script ⟨[.rowKey], by decide⟩ 16), {}⟩
    ¬ handle.EndsTruly [.deliver []] [] := by
  intro script handle truly
  have offered : Message.endMark ∈
      ((handle.run [.deliver []]).2.call (.deliver [])).1.messages := by decide +kernel
  have rows : (handle.answered [.deliver [], .deliver []]).all
      (fun result => result.toOption.join.isSome) = true := by decide +kernel
  cases List.all_eq_true.mp rows _ (truly offered)

end TupleWire
