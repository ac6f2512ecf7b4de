import TupleWire.Proofs.Scan.Encoding
import TupleWire.Scan.History

/-! Calls for the next row, on a scan whose source is told in advance what its fetches
give. Whatever the buffers are, the rows are written in the order of the source, each once. -/
namespace TupleWire

/-- A call for the next row: into a buffer of the scan's own, or into one that is given. -/
inductive Pull where
  | next
  | into (buf : Buffer)

namespace Pull

variable {σ ω : Type}

def call : Pull → Call
  | .next => .next
  | .into buf => .writeNext buf

def buffer (scan : Scan σ) : Pull → Buffer
  | .next => scan.freshBuf
  | .into buf => buf

def answer (turn : Turn σ ω) : Pull → Answer
  | .next => .frame (turn.result.map fun more => if more then some turn.buf.bytes else none)
  | .into _ => .written turn.result turn.buf

theorem call_eq [Source σ ω] (pull : Pull) (scan : Scan σ) (world : ω) :
    Handle.call ⟨some scan, world⟩ pull.call =
      (pull.answer (scan.writeNext (pull.buffer scan) world),
        ⟨some (scan.writeNext (pull.buffer scan) world).scan,
          (scan.writeNext (pull.buffer scan) world).world⟩) := by
  cases pull with
  | next => rfl
  | into buf => rfl

end Pull

def Answer.bearsRow : Answer → Bool
  | .frame (.ok (some _)) => true
  | .written (.ok true) _ => true
  | _ => false

theorem Pull.bearsRow_answer {σ ω : Type} (pull : Pull) (turn : Turn σ ω) :
    (pull.answer turn).bearsRow = true ↔ turn.result = .ok true := by
  obtain ⟨result, scan, buf, world⟩ := turn
  cases pull with
  | next =>
      cases result with
      | error e => exact ⟨nofun, nofun⟩
      | ok more =>
          cases more with
          | false => exact ⟨nofun, nofun⟩
          | true => exact ⟨fun _ => rfl, fun _ => rfl⟩
  | into buf =>
      cases result with
      | error e => exact ⟨nofun, nofun⟩
      | ok more =>
          cases more with
          | false => exact ⟨nofun, nofun⟩
          | true => exact ⟨fun _ => rfl, fun _ => rfl⟩

namespace Script

def outcome (script : Script) (n : Nat) : Except Error (Option Row) :=
  script.results[n]?.getD (.ok none)

def leadingRows : List (Except Error (Option Row)) → List Row
  | .ok (some row) :: rest => row :: leadingRows rest
  | _ => []

/-- The rows that a source yields: those before its first end of data or failure. -/
def rows (script : Script) : List Row := leadingRows script.results

theorem leadingRows_append (front : List Row) (rest : List (Except Error (Option Row))) :
    leadingRows (front.map (.ok ∘ some) ++ rest) = front ++ leadingRows rest := by
  induction front with
  | nil => rfl
  | cons row front ih => exact congrArg (row :: ·) ih

variable {script : Script} {front : List Row} {rest : List (Except Error (Option Row))}

theorem outcome_of_split (split : script.results = front.map (.ok ∘ some) ++ rest) :
    script.outcome front.length = rest.head?.getD (.ok none) := by
  rw [outcome, split, List.getElem?_append_right (by simp), List.length_map, Nat.sub_self,
    List.head?_eq_getElem?]

theorem rows_of_split (split : script.results = front.map (.ok ∘ some) ++ rest) :
    script.rows[front.length]? = (leadingRows rest).head? := by
  rw [rows, split, leadingRows_append, List.getElem?_append_right (Nat.le_refl _), Nat.sub_self,
    List.head?_eq_getElem?]

end Script

namespace Scan

/-- How a scan has ended that has written `n` rows: at the end of the data, by a failure of
its source, or by a row that can never be written. -/
inductive EndedBy (script : Script) (list : List Column) (n : Nat) : Phase → Prop
  | data : script.outcome n = .ok none → EndedBy script list n .exhausted
  | source (e : Error) : script.outcome n = .error e → EndedBy script list n (.aborted e.kind)
  | row (row : Row) (buf : Buffer) (e : Error) : script.rows[n]? = some row →
      ((Write.putRow row list).on buf).1 = .error e → e.retryable = false →
      EndedBy script list n (.aborted e.kind)

/-- The states of a scan that was only asked for rows, and the calls of its source. -/
inductive Stands (script : Script) (heading : Heading) (room : Nat) :
    Scan Script → Traffic → Prop
  | ready (written : List Row) (rest : List (Except Error (Option Row)))
      (split : script.results = written.map (.ok ∘ some) ++ rest) :
      Stands script heading room
        { source := some { script with results := rest }, heading, room, phase := .running
          rows := written.length }
        { fetches := written.length }
  | holding (written : List Row) (row : Row) (rest : List (Except Error (Option Row)))
      (split : script.results = written.map (.ok ∘ some) ++ .ok (some row) :: rest) :
      Stands script heading room
        { source := some { script with results := rest }, heading, room, held := some row
          phase := .running, rows := written.length }
        { fetches := written.length + 1 }
  | ended (source : Option Script) (phase : Phase) (n releases : Nat)
      (cause : EndedBy script heading.columns n phase) :
      Stands script heading room
        { source, heading, room, phase, rows := n } { fetches := n + 1, releases }

end Scan

namespace Turn

variable {σ ω : Type}

/-- The turn encodes a row: it appends what the writer of rows appends, or it fails as that
fails, tells the key and leaves the buffer. -/
def Encodes (turn : Turn σ ω) (list : List Column) (row : Row) (buf : Buffer) : Prop :=
  match (Write.putRow row list).on buf with
  | (.ok _, next) => turn.result = .ok true ∧ turn.buf = next
  | (.error e, _) => turn.result = .error (e.ofRow row) ∧ turn.buf = buf

theorem encodes_of_ok {turn : Turn σ ω} {list : List Column} {row : Row} {buf next : Buffer}
    {length : Nat} (h : (Write.putRow row list).on buf = (.ok length, next))
    (result : turn.result = .ok true) (after : turn.buf = next) : turn.Encodes list row buf := by
  rw [Encodes, h]
  exact ⟨result, after⟩

theorem encodes_of_error {turn : Turn σ ω} {list : List Column} {row : Row} {buf next : Buffer}
    {e : Error} (h : (Write.putRow row list).on buf = (.error e, next))
    (result : turn.result = .error (e.ofRow row)) (after : turn.buf = buf) :
    turn.Encodes list row buf := by
  rw [Encodes, h]
  exact ⟨result, after⟩

end Turn

namespace Scan

theorem encode_encodes {σ ω : Type} [Source σ ω] (scan : Scan σ) (row : Row) (buf : Buffer)
    (world : ω) : (scan.encode row buf world).Encodes scan.heading.columns row buf := by
  refine encode_cases scan row buf world ?_ ?_ ?_
  · intro frame laid
    exact Turn.encodes_of_ok laid rfl rfl
  · intro e refused _
    exact Turn.encodes_of_error refused rfl rfl
  · intro e refused _
    exact Turn.encodes_of_error refused rfl rfl

/-- What a call for the next row makes of the source's row of that number. -/
structure Faithful (script : Script) (list : List Column) (scan : Scan Script) (buf : Buffer)
    (turn : Turn Script Traffic) : Prop where
  /-- Only the source's next row is written, and only behind what the buffer held. -/
  written : turn.result = .ok true → ∃ row frame, script.rows[scan.rows]? = some row ∧
    (Write.putRow row list).on buf = (.ok frame.length, buf.append frame) ∧
      turn.buf = buf.append frame ∧ turn.scan.rows = scan.rows + 1
  unwritten : turn.result ≠ .ok true → turn.buf = buf ∧ turn.scan.rows = scan.rows
  ends : scan.phase = .running → script.outcome scan.rows = .ok none → turn.result = .ok false
  sourceFails : ∀ e, scan.phase = .running → script.outcome scan.rows = .error e →
    turn.result = .error e
  encodes : ∀ row, scan.phase = .running → script.outcome scan.rows = .ok (some row) →
    turn.Encodes list row buf
  /-- A row without room is encoded by the next call too, and nothing is fetched for it. -/
  retries : ∀ row e, scan.phase = .running → script.outcome scan.rows = .ok (some row) →
    ((Write.putRow row list).on buf).1 = .error e → e.retryable = true →
      ∀ again, (turn.scan.writeNext again turn.world).Encodes list row again ∧
        (turn.scan.writeNext again turn.world).world.fetches = turn.world.fetches

variable {script : Script} {heading : Heading} {room : Nat}

theorem fetches_encode (scan : Scan Script) (row : Row) (buf : Buffer) (traffic : Traffic) :
    (scan.encode row buf traffic).world.fetches = traffic.fetches := by
  rcases scan.world_encode row buf traffic with same | closed
  · rw [same]
  · rw [closed]
    obtain ⟨source, heading, room, held, phase, rows⟩ := scan
    cases source with
    | none => rfl
    | some source => rfl

/-- The scan of a script when the rows `written` are behind it and `rest` is to come. -/
def between (script : Script) (heading : Heading) (room : Nat) (written : List Row)
    (rest : List (Except Error (Option Row))) : Scan Script :=
  { source := some { script with results := rest }, heading, room, phase := .running
    rows := written.length }

theorem faithful_of_row {scan : Scan Script} {list : List Column} {row : Row} {buf : Buffer}
    {turn : Turn Script Traffic} (next : script.rows[scan.rows]? = some row)
    (outcome : script.outcome scan.rows = .ok (some row)) (encodes : turn.Encodes list row buf)
    (rows : turn.scan.rows = scan.rows + (turn.result.toOption.getD false).toNat)
    (retries : ∀ e, ((Write.putRow row list).on buf).1 = .error e → e.retryable = true →
      ∀ again, (turn.scan.writeNext again turn.world).Encodes list row again ∧
        (turn.scan.writeNext again turn.world).world.fetches = turn.world.fetches) :
    Faithful script list scan buf turn := by
  have only : ∀ other, script.outcome scan.rows = .ok (some other) → other = row := by
    intro other same
    cases same.symm.trans outcome
    rfl
  constructor
  · intro wrote
    rw [wrote] at rows
    unfold Turn.Encodes at encodes
    rcases Write.on_putRow row list buf with laid | ⟨e, refused⟩
    · rw [laid] at encodes
      exact ⟨row, _, next, laid, encodes.2, rows⟩
    · rw [refused] at encodes
      cases wrote.symm.trans encodes.1
  · intro unwritten
    unfold Turn.Encodes at encodes
    rcases Write.on_putRow row list buf with laid | ⟨e, refused⟩
    · rw [laid] at encodes
      exact absurd encodes.1 unwritten
    · rw [refused] at encodes
      rw [encodes.1] at rows
      exact ⟨encodes.2, rows⟩
  · intro _ finished
    cases finished.symm.trans outcome
  · intro e _ failed
    cases failed.symm.trans outcome
  · intro other _ same
    rw [only other same]
    exact encodes
  · intro other e _ same
    rw [only other same]
    exact retries e

theorem faithful_of_no_row {scan : Scan Script} {buf : Buffer} {turn : Turn Script Traffic}
    (refused : turn.result ≠ .ok true) (kept : turn.buf = buf) (rows : turn.scan.rows = scan.rows)
    (told : scan.phase = .running → turn.result = .ok false ∧ script.outcome scan.rows = .ok none ∨
      ∃ e, turn.result = .error e ∧ script.outcome scan.rows = .error e) :
    Faithful script heading.columns scan buf turn := by
  have no_row : ∀ row, scan.phase = .running → script.outcome scan.rows ≠ .ok (some row) := by
    intro row running next
    rcases told running with ⟨_, finished⟩ | ⟨e, _, failed⟩
    · cases finished.symm.trans next
    · cases failed.symm.trans next
  constructor
  · exact fun wrote => absurd wrote refused
  · exact fun _ => ⟨kept, rows⟩
  · intro running last
    rcases told running with ⟨result, _⟩ | ⟨e, _, failed⟩
    · exact result
    · cases failed.symm.trans last
  · intro e running cause
    rcases told running with ⟨_, finished⟩ | ⟨other, result, failed⟩
    · cases finished.symm.trans cause
    · cases failed.symm.trans cause
      exact result
  · exact fun row running next => absurd next (no_row row running)
  · exact fun row _ running next => absurd next (no_row row running)

theorem stands_encode {written : List Row} {row : Row} {rest : List (Except Error (Option Row))}
    (split : script.results = written.map (.ok ∘ some) ++ .ok (some row) :: rest) (buf : Buffer)
    {scan : Scan Script} (number : scan.rows = written.length) :
    let turn := (between script heading room written rest).encode row buf
      { fetches := written.length + 1 }
    Stands script heading room turn.scan turn.world ∧
      Faithful script heading.columns scan buf turn := by
  have next : script.rows[scan.rows]? = some row := by
    rw [number, Script.rows_of_split split]
    rfl
  have outcome : script.outcome scan.rows = .ok (some row) := by
    rw [number, Script.outcome_of_split split]
    rfl
  have encodes := encode_encodes (between script heading room written rest) row buf
    { fetches := written.length + 1 }
  revert encodes
  refine encode_cases (between script heading room written rest) row buf _ ?_ ?_ ?_
  · intro frame laid encodes
    have longer : script.results = (written ++ [row]).map (.ok ∘ some) ++ rest := by
      rw [split, List.map_append, List.append_assoc]
      rfl
    have state : Stands script heading room _ _ := .ready (written ++ [row]) rest longer
    rw [List.length_append] at state
    refine ⟨state, faithful_of_row next outcome encodes (congrArg (· + 1) number.symm) ?_⟩
    intro e refused
    cases (congrArg Prod.fst laid).symm.trans refused
  · intro e refused retryable encodes
    refine ⟨.holding written row rest split,
      faithful_of_row next outcome encodes number.symm fun _ _ _ again => ?_⟩
    have retried : Scan.writeNext { between script heading room written rest with
        held := some row } again { fetches := written.length + 1 } =
          (between script heading room written rest).encode row again
            { fetches := written.length + 1 } := writeNext_of_held rfl rfl rfl
    rw [retried]
    exact ⟨encode_encodes _ row again _, fetches_encode _ row again _⟩
  · intro e refused fatal encodes
    have here : script.rows[written.length]? = some row := number ▸ next
    refine ⟨.ended none (.aborted e.kind) written.length 1
      (.row row buf e here (congrArg Prod.fst refused) fatal),
      faithful_of_row next outcome encodes number.symm fun other same more => ?_⟩
    cases (congrArg Prod.fst refused).symm.trans same
    cases fatal.symm.trans more

/-- One call for a row keeps to the states above, and treats the row as it should. -/
theorem stands_writeNext {scan : Scan Script} {traffic : Traffic}
    (stands : Stands script heading room scan traffic) (buf : Buffer) :
    Stands script heading room (scan.writeNext buf traffic).scan
        (scan.writeNext buf traffic).world ∧
      Faithful script heading.columns scan buf (scan.writeNext buf traffic) := by
  cases stands with
  | ready written rest split =>
      have outcome := Script.outcome_of_split split
      cases rest with
      | nil =>
          exact ⟨.ended _ .exhausted _ 0 (.data outcome),
            faithful_of_no_row nofun rfl rfl fun _ => .inl ⟨rfl, outcome⟩⟩
      | cons result rest =>
          rcases result with e | none | next
          · exact ⟨.ended none _ _ 1 (.source e outcome),
              faithful_of_no_row nofun rfl rfl fun _ => .inr ⟨e, rfl, outcome⟩⟩
          · exact ⟨.ended _ .exhausted _ 0 (.data outcome),
              faithful_of_no_row nofun rfl rfl fun _ => .inl ⟨rfl, outcome⟩⟩
          · exact stands_encode split buf rfl
  | holding written row rest split =>
      have again : Scan.writeNext { between script heading room written rest with
          held := some row } buf { fetches := written.length + 1 } = _ :=
        writeNext_of_held rfl rfl rfl
      exact again ▸ stands_encode split buf rfl
  | ended source phase n releases cause =>
      refine ⟨?_, ?_⟩
      · cases cause with
        | data last => exact .ended source _ n releases (.data last)
        | source e last => exact .ended source _ n releases (.source e last)
        | row row full e next failed fatal =>
            exact .ended source _ n releases (.row row full e next failed fatal)
      · cases cause with
        | data last => exact faithful_of_no_row nofun rfl rfl nofun
        | source e last => exact faithful_of_no_row nofun rfl rfl nofun
        | row row full e next failed fatal => exact faithful_of_no_row nofun rfl rfl nofun

theorem Stands.counted {scan : Scan Script} {traffic : Traffic}
    (stands : Stands script heading room scan traffic) :
    (scan.phase = .running ∨ EndedBy script heading.columns scan.rows scan.phase) ∧
      traffic.fetches =
        scan.rows + scan.holdsRow.toNat + if scan.phase = .running then 0 else 1 := by
  cases stands with
  | ready written rest split => exact ⟨.inl rfl, rfl⟩
  | holding written row rest split => exact ⟨.inl rfl, rfl⟩
  | ended source phase n releases cause =>
      refine ⟨.inr cause, ?_⟩
      have finished : phase ≠ .running := by
        rintro rfl
        cases cause
      rw [if_neg finished]
      rfl

end Scan

/-- What calls for rows have made of a scan, and what one more call makes of it. -/
structure Handle.Pulled (script : Script) (list : List Column)
    (run : List Answer × Handle Script Traffic) (scan : Scan Script) : Prop where
  present : run.2.scan = some scan
  rows : scan.rows = run.1.countP Answer.bearsRow
  ended : scan.phase = .running ∨ Scan.EndedBy script list scan.rows scan.phase
  fetches : run.2.world.fetches =
    scan.rows + scan.holdsRow.toNat + if scan.phase = .running then 0 else 1
  again : ∀ pull : Pull, ∃ turn : Turn Script Traffic,
    run.2.call pull.call = (pull.answer turn, ⟨some turn.scan, turn.world⟩) ∧
      Scan.Faithful script list scan (pull.buffer scan) turn

section Run

variable {script : Script} {heading : Heading} {room : Nat}

theorem Scan.stands_run (pulls : List Pull) {scan : Scan Script} {traffic : Traffic}
    (stands : Scan.Stands script heading room scan traffic) :
    ∃ last : Scan Script, ∃ seen : Traffic,
      (Handle.run ⟨some scan, traffic⟩ (pulls.map Pull.call)).2 = ⟨some last, seen⟩ ∧
        last.rows = scan.rows +
          (Handle.run ⟨some scan, traffic⟩ (pulls.map Pull.call)).1.countP Answer.bearsRow ∧
        Scan.Stands script heading room last seen := by
  induction pulls generalizing scan traffic with
  | nil => exact ⟨scan, traffic, rfl, rfl, stands⟩
  | cons pull pulls ih =>
      have step := Scan.stands_writeNext stands (pull.buffer scan)
      rw [List.map_cons, Handle.run, Pull.call_eq]
      generalize scan.writeNext (pull.buffer scan) traffic = turn at step
      obtain ⟨last, seen, after, rows, kept⟩ := ih step.1
      refine ⟨last, seen, after, ?_, kept⟩
      rw [rows, List.countP_cons]
      have faithful := step.2
      cases given : (pull.answer turn).bearsRow with
      | true =>
          obtain ⟨row, frame, _, _, _, counted⟩ :=
            faithful.written ((Pull.bearsRow_answer pull turn).mp given)
          rw [counted]
          simp only [if_true]
          omega
      | false =>
          have refused : turn.result ≠ .ok true := by
            intro wrote
            rw [(Pull.bearsRow_answer pull turn).mpr wrote] at given
            cases given
          rw [(faithful.unwritten refused).2]
          simp

/-- However a scan is asked for rows, it writes the rows of its source, each once and in
their order, and it fetches no row before the one in front of it is written. -/
theorem pulls_keep_rows (script : Script) (heading : Heading) (room : Nat) (pulls : List Pull) :
    ∃ scan, Handle.Pulled script heading.columns
      (Handle.run ⟨some (Scan.start script heading room), {}⟩ (pulls.map Pull.call)) scan := by
  have first : Scan.Stands script heading room (Scan.start script heading room) {} :=
    .ready [] script.results rfl
  obtain ⟨last, seen, after, rows, stands⟩ := Scan.stands_run pulls first
  obtain ⟨ended, fetches⟩ := stands.counted
  refine ⟨last, ?_, rows.trans (Nat.zero_add _), ended, ?_, ?_⟩
  · rw [after]
  · rw [after]
    exact fetches
  · intro pull
    rw [after]
    exact ⟨_, Pull.call_eq pull last seen, (Scan.stands_writeNext stands (pull.buffer last)).2⟩

end Run

end TupleWire
