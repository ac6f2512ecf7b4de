import TupleWire.Proofs.Scan.Accounting

/-! What becomes of a scan that is over, at the end of its data, by a failure or because it was
closed: later calls get the same answer, fetch nothing, and release the source if that is left. -/
namespace TupleWire

/-- What a call for a row gives when the scan is over. -/
def Phase.lastWord : Phase → Except Error Bool
  | .aborted after => .error { fault := .scanAborted after }
  | _ => .ok false

variable {σ ω : Type} [Source σ ω]

namespace Scan

variable {scan : Scan σ}

theorem writeNext_of_over (stopped : scan.phase ≠ .running) (buf : Buffer) (world : ω) :
    scan.writeNext buf world = { result := scan.phase.lastWord, scan, buf, world } := by
  cases phase : scan.phase with
  | running => exact absurd phase stopped
  | exhausted => exact writeNext_of_finished (.inl phase)
  | closed => exact writeNext_of_finished (.inr phase)
  | aborted after => exact writeNext_of_aborted phase

theorem deliverRows_of_over (stopped : scan.phase ≠ .running) (sink : Sink) (world : ω)
    (tally : Tally) :
    (scan.deliverRows sink world tally).scan = scan ∧
      (scan.deliverRows sink world tally).world = world := by
  have asked := writeNext_of_over stopped scan.freshBuf world
  cases word : scan.phase.lastWord with
  | error e =>
      rw [deliverRows_of_error asked word]
      exact ⟨rfl, rfl⟩
  | ok more =>
      cases more with
      | false =>
          rw [deliverRows_of_end asked word]
          exact ⟨rfl, rfl⟩
      | true =>
          cases phase : scan.phase with
          | _ =>
              rw [phase] at word
              cases word

theorem deliver_of_over (stopped : scan.phase ≠ .running) (sink : Sink) (world : ω) :
    (scan.deliver sink world).scan = (scan.close world).1 ∧
      (scan.deliver sink world).world = (scan.close world).2 := by
  obtain ⟨same, still⟩ := deliverRows_of_over stopped sink world {}
  rw [deliver]
  simp only
  rw [same, still]
  exact ⟨rfl, rfl⟩

theorem close_over (scan : Scan σ) (world : ω) : (scan.close world).1.phase ≠ .running := by
  obtain ⟨source, heading, room, held, phase, rows⟩ := scan
  cases phase with
  | _ => nofun

theorem lastWord_close (scan : Scan σ) (world : ω) :
    (scan.close world).1.phase.lastWord = scan.phase.lastWord := by
  obtain ⟨source, heading, room, held, phase, rows⟩ := scan
  cases phase with
  | _ => rfl

end Scan

namespace Handle

theorem run_append (handle : Handle σ ω) (front back : List Call) :
    (handle.run (front ++ back)).2 = ((handle.run front).2.run back).2 := by
  induction front generalizing handle with
  | nil => rfl
  | cons call front ih => exact ih (handle.call call).2

/-- Calls on a scan that is over can only close it. -/
theorem run_of_over {motive : Handle σ ω → Prop}
    (stopped : ∀ scan world, motive ⟨some scan, world⟩ → scan.phase ≠ .running)
    (close : ∀ scan world, motive ⟨some scan, world⟩ →
      motive ⟨some (scan.close world).1, (scan.close world).2⟩)
    (drop : ∀ scan world, motive ⟨some scan, world⟩ → motive ⟨none, (scan.close world).2⟩)
    {handle : Handle σ ω} (first : motive handle) (calls : List Call) :
    motive (handle.run calls).2 := by
  induction calls generalizing handle with
  | nil => exact first
  | cons call calls ih =>
      suffices motive (handle.call call).2 from ih this
      obtain ⟨scan, world⟩ := handle
      cases scan with
      | none =>
          cases call with
          | _ => exact first
      | some scan =>
          have rested := stopped scan world first
          let again (turn : Turn σ ω) : Handle σ ω := ⟨some turn.scan, turn.world⟩
          cases call with
          | next =>
              have same : (Handle.call ⟨some scan, world⟩ .next).2 = ⟨some scan, world⟩ :=
                congrArg again (Scan.writeNext_of_over rested scan.freshBuf world)
              rw [same]
              exact first
          | writeNext buf =>
              have same : (Handle.call ⟨some scan, world⟩ (.writeNext buf)).2 =
                  ⟨some scan, world⟩ := congrArg again (Scan.writeNext_of_over rested buf world)
              rw [same]
              exact first
          | close => exact close scan world first
          | deliver answers =>
              obtain ⟨last, after⟩ := Scan.deliver_of_over rested { answers } world
              have same : (Handle.call ⟨some scan, world⟩ (.deliver answers)).2 =
                  ⟨some (scan.close world).1, (scan.close world).2⟩ :=
                congr (congrArg (fun scan world => (⟨some scan, world⟩ : Handle σ ω)) last) after
              rw [same]
              exact close scan world first
          | drop => exact drop scan world first

theorem isSome_run (handle : Handle σ ω) (calls : List Call) :
    (handle.run calls).2.scan.isSome = true ↔ handle.scan.isSome = true ∧ .drop ∉ calls := by
  induction calls generalizing handle with
  | nil => exact (and_iff_left nofun).symm
  | cons call calls ih =>
      have first : (handle.call call).2.scan.isSome = true ↔
          handle.scan.isSome = true ∧ .drop ≠ call := by
        obtain ⟨scan, world⟩ := handle
        cases scan with
        | none =>
            cases call with
            | _ => exact iff_of_false nofun fun present => nomatch present.1
        | some scan =>
            cases call with
            | drop => exact iff_of_false nofun fun kept => kept.2 rfl
            | _ => exact iff_of_true rfl ⟨rfl, nofun⟩
      rw [run_cons, ih, first, List.mem_cons, not_or, and_assoc]

/-- The scan, if it is still there, is over; it gives that answer, and the source was asked for
so many rows. -/
def Rested (word : Except Error Bool) (fetches : Nat)
    (handle : Handle (Watched σ) (ω × List Contact)) : Prop :=
  handle.world.2.countP Contact.isFetch = fetches ∧
    ∀ scan, handle.scan = some scan → scan.phase ≠ .running ∧ scan.phase.lastWord = word

variable {word : Except Error Bool} {fetches : Nat}
  {handle : Handle (Watched σ) (ω × List Contact)}

theorem rested_run (rested : handle.Rested word fetches) (calls : List Call) :
    (handle.run calls).2.Rested word fetches := by
  refine run_of_over ?_ ?_ ?_ rested calls
  · intro scan world rested
    exact (rested.2 scan rfl).1
  · intro scan world rested
    refine ⟨(scan.fetches_close world).trans rested.1, ?_⟩
    rintro _ ⟨⟩
    exact ⟨scan.close_over world, (scan.lastWord_close world).trans (rested.2 scan rfl).2⟩
  · intro scan world rested
    exact ⟨(scan.fetches_close world).trans rested.1, nofun⟩

/-- The source was never called; a scan without a source leaves it so. -/
def Unasked (handle : Handle (Watched σ) (ω × List Contact)) : Prop :=
  handle.world.2 = [] ∧ ∀ scan, handle.scan = some scan → scan.phase ≠ .running ∧ scan.source = none

theorem unasked_run (unasked : handle.Unasked) (calls : List Call) :
    (handle.run calls).2.Unasked := by
  have still {scan : Scan (Watched σ)} {world : ω × List Contact}
      (unasked : Unasked ⟨some scan, world⟩) : (scan.close world).2.2 = [] := by
    obtain ⟨source, heading, room, held, phase, rows⟩ := scan
    obtain ⟨-, rfl⟩ := unasked.2 _ rfl
    exact unasked.1
  refine run_of_over ?_ ?_ ?_ unasked calls
  · intro scan world unasked
    exact (unasked.2 scan rfl).1
  · intro scan world unasked
    refine ⟨still unasked, ?_⟩
    rintro _ ⟨⟩
    exact ⟨scan.close_over world, rfl⟩
  · intro scan world unasked
    exact ⟨still unasked, nofun⟩

theorem written_of_rested (rested : handle.Rested word fetches)
    (present : handle.scan.isSome = true) (buf : Buffer) :
    (handle.call (.writeNext buf)).1 = .written word buf := by
  obtain ⟨scan, world⟩ := handle
  cases scan with
  | none => cases present
  | some scan =>
      obtain ⟨stopped, rfl⟩ := rested.2 scan rfl
      exact congrArg (fun turn : Turn (Watched σ) (ω × List Contact) =>
        Answer.written turn.result turn.buf) (Scan.writeNext_of_over stopped buf world)

namespace Accounts

omit [Source σ ω]

variable {told : List (Call × Answer)}

theorem orderly (accounts : handle.Accounts told) : Contact.Orderly handle.world.2 := by
  obtain ⟨scan, world⟩ := handle
  cases scan with
  | none =>
      obtain ⟨last, _, _, rows, rest, log, past⟩ := accounts
      exact log ▸ past.orderly rows
  | some scan =>
      obtain ⟨rows, rest, log, past⟩ := accounts
      exact log ▸ past.orderly rows

theorem released (accounts : handle.Accounts told) :
    handle.world.2.countP Contact.isRelease ≤ 1 ∧
      (handle.scan = none → handle.world.2.countP Contact.isRelease = 1) := by
  obtain ⟨scan, world⟩ := handle
  cases scan with
  | none =>
      obtain ⟨last, _, free, rows, rest, log, past⟩ := accounts
      rw [free] at past
      have once : world.2.countP Contact.isRelease = 1 := log ▸ past.releases rows
      exact ⟨Nat.le_of_eq once, fun _ => once⟩
  | some scan =>
      obtain ⟨rows, rest, log, past⟩ := accounts
      refine ⟨?_, nofun⟩
      rw [log, past.releases rows]
      split
      · exact Nat.zero_le 1
      · exact Nat.le_refl 1

theorem rested_of_end (accounts : handle.Accounts told)
    (ended : .fetched (.ok none) ∈ handle.world.2) :
    handle.Rested (.ok false) (handle.world.2.countP Contact.isFetch) := by
  refine ⟨rfl, fun scan present => ?_⟩
  obtain ⟨_, world⟩ := handle
  cases present
  obtain ⟨rows, rest, log, past⟩ := accounts
  rw [log] at ended
  rcases past.finished_of_end ended with phase | phase
  · rw [phase]
    exact ⟨nofun, rfl⟩
  · rw [phase]
    exact ⟨nofun, rfl⟩

theorem rested_of_failure (accounts : handle.Accounts told) {kind : FaultKind}
    (failed : Ruined handle.world.2 (MalformedIn told) kind) :
    handle.Rested (.error { fault := .scanAborted kind })
      (handle.world.2.countP Contact.isFetch) := by
  refine ⟨rfl, fun scan present => ?_⟩
  obtain ⟨_, world⟩ := handle
  cases present
  obtain ⟨rows, rest, log, past⟩ := accounts
  rw [log] at failed
  rw [(past.aborted_iff rows kind).mpr failed]
  exact ⟨nofun, rfl⟩

theorem rested_of_closed (accounts : handle.Accounts told)
    (closed : (told.map Prod.fst).any Call.closes = true)
    (well : ∀ kind, ¬ Ruined handle.world.2 (MalformedIn told) kind) :
    handle.Rested (.ok false) (handle.world.2.countP Contact.isFetch) := by
  refine ⟨rfl, fun scan present => ?_⟩
  obtain ⟨_, world⟩ := handle
  cases present
  obtain ⟨rows, rest, log, past⟩ := accounts
  rw [log] at well
  rcases past.over_of_closed closed with phase | ⟨kind, phase⟩
  · rw [phase]
    exact ⟨nofun, rfl⟩
  · exact absurd ((past.aborted_iff rows kind).mp phase) (well kind)

theorem exists_rested (accounts : handle.Accounts told)
    (stopped : .fetched (.ok none) ∈ handle.world.2 ∨
      (∃ kind, Ruined handle.world.2 (MalformedIn told) kind) ∨
        (told.map Prod.fst).any Call.closes = true ∨ handle.scan = none) :
    ∃ word, handle.Rested word (handle.world.2.countP Contact.isFetch) := by
  rcases stopped with ended | ⟨kind, failed⟩ | closed | gone
  · exact ⟨_, accounts.rested_of_end ended⟩
  · exact ⟨_, accounts.rested_of_failure failed⟩
  · by_cases failed : ∃ kind, Ruined handle.world.2 (MalformedIn told) kind
    · obtain ⟨kind, failed⟩ := failed
      exact ⟨_, accounts.rested_of_failure failed⟩
    · exact ⟨_, accounts.rested_of_closed closed (not_exists.mp failed)⟩
  · refine ⟨.ok false, rfl, fun scan present => ?_⟩
    cases gone.symm.trans present

end Accounts

/-- The calls have ended the scan by a failure of that kind, of the source or for a row. -/
def Failed (handle : Handle σ ω) (calls : List Call) (kind : FaultKind) : Prop :=
  Ruined (handle.contacts calls) (MalformedIn (handle.dialogue calls)) kind

/-- The calls have come to the end of the data or to such a failure, or they have closed or
dropped the scan. -/
def Over (handle : Handle σ ω) (calls : List Call) : Prop :=
  .fetched (.ok none) ∈ handle.contacts calls ∨ (∃ kind, handle.Failed calls kind) ∨
    calls.any Call.closes = true ∨ .drop ∈ calls

/-- What is true of a scan after the calls `front`, and stays so whatever calls follow. -/
structure Rests (handle : Handle σ ω) (front back : List Call) : Prop where
  orderly : Contact.Orderly (handle.contacts front)
  fetches : handle.Over front →
    (handle.contacts (front ++ back)).countP Contact.isFetch =
      (handle.contacts front).countP Contact.isFetch
  released : (handle.contacts front).countP Contact.isRelease ≤ 1
  dropped : .drop ∈ front → (handle.contacts front).countP Contact.isRelease = 1
  finished : .fetched (.ok none) ∈ handle.contacts front ∨
      front.any Call.closes = true ∧ (∀ kind, ¬ handle.Failed front kind) →
    .drop ∉ front ++ back → ∀ buf,
      ((handle.run (front ++ back)).2.call (.writeNext buf)).1 = .written (.ok false) buf
  aborted : ∀ kind, handle.Failed front kind → .drop ∉ front ++ back → ∀ buf, ∃ e,
    ((handle.run (front ++ back)).2.call (.writeNext buf)).1 = .written (.error e) buf ∧
      e.kind = .closed ∧
      e.fault.message? = some ("scan aborted after " ++ kind.name ++ " error")

/-- What holds of a scan at rest is what a later call is answered. -/
theorem written_of_rested_run {handle : Handle σ ω} {front back : List Call}
    (rested : (handle.watched.run front).2.Rested word fetches)
    (present : handle.scan.isSome = true) (kept : .drop ∉ front ++ back) (buf : Buffer) :
    ((handle.run (front ++ back)).2.call (.writeNext buf)).1 = .written word buf := by
  have later := rested_run rested back
  rw [← run_append] at later
  have here : handle.watched.scan.isSome = true := Option.isSome_map.trans present
  rw [call_run_watched]
  exact written_of_rested later ((handle.watched.isSome_run _).mpr ⟨here, kept⟩) buf

theorem rests_start (source : σ) (world : ω) (heading : Heading) (room : Nat)
    (front back : List Call) :
    (Handle.mk (some (Scan.start source heading room)) world).Rests front back := by
  let handle : Handle σ ω := ⟨some (Scan.start source heading room), world⟩
  have accounts : (handle.watched.run front).2.Accounts (handle.dialogue front) :=
    accounts_run source world heading room front
  have calls := handle.calls_dialogue front
  have gone (dropped : .drop ∈ front) : (handle.watched.run front).2.scan = none := by
    rw [← Option.not_isSome_iff_eq_none, isSome_run]
    exact fun present => present.2 dropped
  refine ⟨accounts.orderly, ?_, accounts.released.1, ?_, ?_, ?_⟩
  · intro stopped
    obtain ⟨word, rested⟩ := accounts.exists_rested (calls.symm ▸
      stopped.imp_right (.imp_right (.imp_right gone)))
    rw [contacts, run_append]
    exact (rested_run rested back).1
  · exact fun dropped => accounts.released.2 (gone dropped)
  · rintro (ended | ⟨closed, well⟩)
    · exact written_of_rested_run (accounts.rested_of_end ended) rfl
    · exact written_of_rested_run (accounts.rested_of_closed (calls.symm ▸ closed) well) rfl
  · intro kind failed kept buf
    have answer := written_of_rested_run (accounts.rested_of_failure failed) rfl kept buf
    exact ⟨_, answer, rfl, rfl⟩

end Handle

/-- A scan that has come to its end, failed or was closed stays so: its source is not asked again
and is released once, and later calls are answered alike. A scan without a source calls none.
Sources are finite lists of outcomes (see `Source`). -/
theorem rests_for_good (source : σ) (world : ω) (heading : Heading) (room : Nat)
    (front back : List Call) :
    (Handle.mk (some (Scan.start source heading room)) world).Rests front back ∧
      let bare : Handle σ ω := ⟨some (Scan.empty heading room), world⟩
      bare.contacts front = [] ∧
        (.drop ∉ front → ∀ buf,
          ((bare.run front).2.call (.writeNext buf)).1 = .written (.ok false) buf) := by
  refine ⟨Handle.rests_start source world heading room front back, ?_⟩
  intro bare
  have unasked : bare.watched.Unasked := by
    refine ⟨rfl, ?_⟩
    rintro _ ⟨⟩
    exact ⟨nofun, rfl⟩
  have rested : (bare.watched.run []).2.Rested (.ok false) 0 := by
    refine ⟨rfl, ?_⟩
    rintro _ ⟨⟩
    exact ⟨nofun, rfl⟩
  exact ⟨(Handle.unasked_run unasked front).1, Handle.written_of_rested_run rested rfl⟩

end TupleWire
