import TupleWire.Proofs.Scan.Resting

/-! What a scan has in hand, by how far it has come. A scan that runs has its source, and only such
a scan holds a row; one that is closed or aborted has neither. So no call for a row, be it one of
a delivery, finds a running scan without its source. -/
namespace TupleWire

/-- The phases that come with the release of the source. -/
def Phase.isShut : Phase → Bool
  | .closed => true
  | .aborted _ => true
  | _ => false

variable {σ ω : Type}

namespace Scan

/-- The source, the held row and the phase of a scan agree. A `bare` scan is one that was made
without a source. -/
structure Agrees (scan : Scan σ) (bare : Bool) : Prop where
  running : scan.phase = .running → scan.isReleased = false
  holding : scan.holdsRow = true → scan.phase = .running ∧ scan.isReleased = false
  shut : scan.phase.isShut = true → scan.isReleased = true ∧ scan.holdsRow = false
  released : scan.isReleased = true ↔ scan.phase.isShut = true ∨ bare = true

variable {scan : Scan σ} {bare : Bool}

theorem isReleased_of_some {source : σ} (present : scan.source = some source) :
    scan.isReleased = false := by
  rw [isReleased, present]
  rfl

theorem holdsRow_of_none (free : scan.held = none) : scan.holdsRow = false := by
  rw [holdsRow, free]
  rfl

theorem Agrees.source_of_running (agrees : scan.Agrees bare) (running : scan.phase = .running) :
    scan.source ≠ none := by
  intro gone
  have present := agrees.running running
  rw [isReleased, gone] at present
  cases present

theorem Agrees.bare_of_running (agrees : scan.Agrees bare) (running : scan.phase = .running) :
    bare = false := by
  cases bare with
  | false => rfl
  | true => cases (agrees.released.mpr (.inr rfl)).symm.trans (agrees.running running)

theorem agrees_of_present {source : σ} (present : scan.source = some source)
    (unshut : scan.phase.isShut = false) (holding : scan.holdsRow = true → scan.phase = .running) :
    scan.Agrees false := by
  have kept := isReleased_of_some present
  constructor
  · exact fun _ => kept
  · exact fun holds => ⟨holding holds, kept⟩
  · rw [unshut]
    nofun
  · rw [unshut, kept]
    exact ⟨nofun, fun given => nomatch given⟩

theorem agrees_of_running {source : σ} (running : scan.phase = .running)
    (present : scan.source = some source) : scan.Agrees false := by
  refine agrees_of_present present ?_ fun _ => running
  rw [running]
  rfl

theorem agrees_of_shut (shut : scan.phase.isShut = true) (released : scan.source = none)
    (free : scan.held = none) : scan.Agrees bare := by
  have gone : scan.isReleased = true := by
    rw [isReleased, released]
    rfl
  have unheld := holdsRow_of_none free
  constructor
  · intro running
    rw [running] at shut
    cases shut
  · rw [unheld]
    nofun
  · exact fun _ => ⟨gone, unheld⟩
  · exact iff_of_true gone (.inl shut)

theorem agrees_empty (heading : Heading) (room : Nat) :
    (empty heading room : Scan σ).Agrees true where
  running := nofun
  holding := nofun
  shut := nofun
  released := iff_of_true rfl (.inr rfl)

variable [Source σ ω] {world : ω}

theorem agrees_close (scan : Scan σ) (world : ω) (bare : Bool) :
    (scan.close world).1.Agrees bare := by
  have shut : (scan.close world).1.phase.isShut = true := by
    rw [close]
    cases scan.phase with
    | _ => rfl
  exact agrees_of_shut shut rfl rfl

/-- A row in hand is written, put back or given up; only the last ends the scan. -/
theorem agrees_encode (scan : Scan σ) {source : σ} (running : scan.phase = .running)
    (present : scan.source = some source) (row : Row) (buf : Buffer) (world : ω) :
    (scan.encode row buf world).scan.Agrees false := by
  refine encode_cases scan row buf world ?_ ?_ ?_
  · intro frame _
    exact agrees_of_running running present
  · intro e _ _
    exact agrees_of_running running present
  · intro e _ _
    exact agrees_of_shut rfl rfl rfl

theorem agrees_writeNext (agrees : scan.Agrees bare) (buf : Buffer) (world : ω) :
    (scan.writeNext buf world).scan.Agrees bare := by
  refine writeNext_cases scan buf world ?_ ?_ ?_ ?_ ?_ ?_ ?_
  · intro _
    exact agrees
  · intro after _
    exact agrees
  · intro running gone
    exact absurd gone (agrees.source_of_running running)
  · intro source row running present _
    cases agrees.bare_of_running running
    exact agrees_encode { scan with held := none } running present row buf world
  · intro source row running _ _ _
    cases agrees.bare_of_running running
    exact agrees_encode { scan with source := some (Source.fetch source world).source } running rfl
      row buf _
  · intro source running _ free _
    cases agrees.bare_of_running running
    refine agrees_of_present rfl rfl fun holds => ?_
    cases holds.symm.trans (holdsRow_of_none free)
  · intro source e _ _ _ _
    exact agrees_of_shut rfl rfl rfl

theorem Asked.agrees {sink : Sink} {last : Scan σ} {seen : ω}
    (asked : scan.Asked sink world last seen) (agrees : scan.Agrees bare) : last.Agrees bare :=
  asked.keeps (motive := fun scan _ => scan.Agrees bare)
    (fun scan world agrees => agrees_writeNext agrees scan.freshBuf world) agrees

end Scan

namespace Handle

variable [Source σ ω] {handle : Handle σ ω} {bare : Bool}

/-- The scans that a call asks for a row. -/
inductive Asks : Handle σ ω → Call → Scan σ → Prop
  | next (scan : Scan σ) (world : ω) : Asks ⟨some scan, world⟩ .next scan
  | writeNext (scan : Scan σ) (world : ω) (buf : Buffer) :
      Asks ⟨some scan, world⟩ (.writeNext buf) scan
  | deliver {scan last : Scan σ} {world seen : ω} {answers : List (Except Error Receipt)}
      (asked : scan.Asked { answers } world last seen) :
      Asks ⟨some scan, world⟩ (.deliver answers) last

/-- The fields of the scan agree, unless it was dropped. -/
def Agrees (handle : Handle σ ω) (bare : Bool) : Prop :=
  ∀ scan, handle.scan = some scan → scan.Agrees bare

theorem Asks.agrees {call : Call} {last : Scan σ} (asks : handle.Asks call last)
    (agrees : handle.Agrees bare) : last.Agrees bare := by
  cases asks with
  | next world => exact agrees last rfl
  | writeNext world buf => exact agrees last rfl
  | @deliver scan _ world seen answers asked => exact asked.agrees (agrees scan rfl)

theorem agrees_call (agrees : handle.Agrees bare) (call : Call) :
    (handle.call call).2.Agrees bare := by
  obtain ⟨scan, world⟩ := handle
  cases scan with
  | none =>
      cases call with
      | _ => exact agrees
  | some scan =>
      have before := agrees scan rfl
      cases call with
      | next =>
          rintro _ ⟨⟩
          exact Scan.agrees_writeNext before scan.freshBuf world
      | writeNext buf =>
          rintro _ ⟨⟩
          exact Scan.agrees_writeNext before buf world
      | close =>
          rintro _ ⟨⟩
          exact Scan.agrees_close scan world bare
      | deliver answers =>
          rintro _ ⟨⟩
          let sent := scan.deliverRows { answers } world {}
          exact Scan.agrees_close sent.scan sent.world bare
      | drop => exact nofun

theorem agrees_run (agrees : handle.Agrees bare) (calls : List Call) :
    (handle.run calls).2.Agrees bare := by
  induction calls generalizing handle with
  | nil => exact agrees
  | cons call calls ih => exact ih (agrees_call agrees call)

/-- The scan is there and its fields agree, and no further call asks a running scan without its
source for a row. -/
structure InOrder (handle : Handle σ ω) (scan : Scan σ) (bare : Bool) : Prop where
  present : handle.scan = some scan
  agrees : scan.Agrees bare
  asked : ∀ call last, handle.Asks call last → ¬ (last.phase = .running ∧ last.source = none)

theorem inOrder_run (agrees : handle.Agrees bare) (here : handle.scan.isSome = true)
    {calls : List Call} (kept : .drop ∉ calls) : ∃ scan, (handle.run calls).2.InOrder scan bare := by
  have later := agrees_run agrees calls
  obtain ⟨scan, present⟩ :=
    Option.isSome_iff_exists.mp ((handle.isSome_run calls).mpr ⟨here, kept⟩)
  refine ⟨scan, present, later scan present, ?_⟩
  rintro call last asks ⟨running, gone⟩
  exact (asks.agrees later).source_of_running running gone

end Handle

variable [Source σ ω]

/-- Whatever calls were made, the fields of a scan agree, of one that was started on a source as
of an empty one. Sources are finite lists of outcomes (see `Source`). -/
theorem fields_agree_after_calls (source : σ) (world : ω) (heading : Heading) (room : Nat)
    (calls : List Call) (kept : .drop ∉ calls) :
    (∃ scan, (Handle.run (⟨some (Scan.start source heading room), world⟩ : Handle σ ω)
      calls).2.InOrder scan false) ∧
    (∃ scan, (Handle.run (⟨some (Scan.empty heading room), world⟩ : Handle σ ω)
      calls).2.InOrder scan true) := by
  constructor
  · refine Handle.inOrder_run ?_ rfl kept
    rintro _ ⟨⟩
    exact Scan.agrees_of_running rfl rfl
  · refine Handle.inOrder_run ?_ rfl kept
    rintro _ ⟨⟩
    exact Scan.agrees_empty heading room

/-- A row that is too long is held, and a call with a larger buffer writes it; the row behind it
has no key, and a delivery is aborted by that. -/
theorem fields_agree_after_calls_aborted :
    let script : Script := { results := [.ok (some [⟨[107], [102], [113], [118]⟩]), .ok (some [])] }
    let heading : Heading := ⟨[.rowKey], by decide⟩
    let started : Handle Script Traffic := ⟨some (Scan.start script heading 16), {}⟩
    let calls : List Call := [.next, .writeNext { limit := 64 }, .deliver []]
    .drop ∉ calls ∧
      (started.run [.next]).2.scan.map Scan.holdsRow = some true ∧
      (started.run calls).2.scan.map Scan.phase = some (.aborted .malformed) ∧
      (∃ scan, (started.run calls).2.InOrder scan false) ∧
      (∃ scan, (Handle.run (⟨some (Scan.empty heading 16), {}⟩ : Handle Script Traffic)
        calls).2.InOrder scan true) := by
  intro script heading started calls
  have kept : .drop ∉ calls := by simp [calls]
  refine ⟨kept, by decide +kernel, by decide +kernel, ?_⟩
  -- Known calls would be run where the two statements are compared.
  clear_value script heading calls
  exact fields_agree_after_calls script {} heading 16 calls kept

end TupleWire
