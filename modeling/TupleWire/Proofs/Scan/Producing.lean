import TupleWire.Proofs.Frame.Aligning
import TupleWire.Proofs.Scan.Offering
import TupleWire.Scan.History

/-! The ways to get the rows of a scan: one buffer for each row, one buffer for all, or messages
to a sink. The frames are the same. -/
namespace TupleWire

/-- The row can be written into an empty buffer of that room. -/
def Row.Fits (list : List Column) (room : Nat) (row : Row) : Prop :=
  ∃ length next, (Write.putRow row list).on { limit := room } = (.ok length, next)

theorem Row.Fits.laid {list : List Column} {room : Nat} {row : Row} (fits : row.Fits list room) :
    (Write.putRow row list).on { limit := room } =
      (.ok (Layout.row 0 row list).length, { bytes := Layout.row 0 row list, limit := room }) := by
  obtain ⟨length, next, ok⟩ := fits
  obtain ⟨-, -, rfl, rfl⟩ := (Write.lays_putRow row list { limit := room }).of_ok ok
  exact ok

theorem Row.fits_of_writable {list : List Column} {room : Nat} {row : Row}
    (writable : Layout.Writable 0 row list) (small : (Layout.row 0 row list).length ≤ room) :
    row.Fits list room :=
  ⟨_, _, (Write.lays_putRow row list { limit := room }).laid writable small⟩

/-- The buffer after each of the frames that are appended to it. -/
def Buffer.stages (buf : Buffer) : List Bytes → List Buffer
  | [] => []
  | frame :: frames => buf.append frame :: (buf.append frame).stages frames

/-- A message with its own length in place of its first word. -/
def Message.unwrap (message : Bytes) : Bytes :=
  (Word.ofNat message.length).toBytes ++ message.drop wordSize

theorem Message.unwrap_frame (body : Bytes) :
    unwrap (rowTag.toBytes ++ (Layout.frame .raw body).drop wordSize) = Layout.frame .raw body := by
  have rest : (Layout.frame .raw body).drop wordSize = body := rfl
  rw [rest, unwrap, List.length_append, Word.length_toBytes]
  rfl

variable {σ ω : Type} [Source σ ω]

/-- Asks a scan for rows into one buffer, that number of times, and gives each result with the
buffer after it. -/
def Scan.fill (scan : Scan σ) (buf : Buffer) (world : ω) :
    Nat → List (Except Error Bool × Buffer)
  | 0 => []
  | n + 1 =>
      let turn := scan.writeNext buf world
      (turn.result, turn.buf) :: turn.scan.fill turn.buf turn.world n

theorem Handle.call_next {scan : Scan σ} {world : ω} {turn : Turn σ ω}
    (asked : scan.writeNext scan.freshBuf world = turn) :
    Handle.call ⟨some scan, world⟩ .next =
      (.frame (turn.result.map fun more => if more then some turn.buf.bytes else none),
        ⟨some turn.scan, turn.world⟩) := by
  subst asked
  rfl

namespace Scan

/-- A running scan that holds no row, when `count` rows are behind it. -/
def midway (source : σ) (heading : Heading) (room count : Nat) : Scan σ :=
  { source := some source, heading, room, phase := .running, rows := count }

variable {source : σ} {world : ω} {heading : Heading} {room : Nat} {row : Row} {rows : List Row}
  {buf : Buffer}

theorem writeNext_midway_of_cons {length : Nat} {next : Buffer}
    (course : Source.course source world = { items := row :: rows })
    (laid : (Write.putRow row heading.columns).on buf = (.ok length, next)) (count : Nat) :
    ∃ (later : σ) (after : ω), Source.course later after = { items := rows } ∧
      (midway source heading room count).writeNext buf world =
        { result := .ok true, scan := midway later heading room (count + 1), buf := next
          world := after } := by
  obtain ⟨fetched, rest⟩ := Source.fetch_of_course_cons course
  refine ⟨_, _, rest, ?_⟩
  have asked : (midway source heading room count).writeNext buf world = _ :=
    writeNext_of_row rfl rfl rfl fetched
  rw [asked]
  exact encode_of_ok laid

theorem writeNext_midway_of_nil (course : Source.course source world = { items := [] })
    (heading : Heading) (room count : Nat) (buf : Buffer) :
    ∃ (last : Scan σ) (after : ω), (midway source heading room count).writeNext buf world =
      { result := .ok false, scan := last, buf, world := after } := by
  have asked : (midway source heading room count).writeNext buf world = _ :=
    writeNext_of_end rfl rfl rfl (Source.fetch_of_course_nil course)
  exact ⟨_, _, asked⟩

theorem run_next_midway (course : Source.course source world = { items := rows })
    (fits : ∀ row ∈ rows, row.Fits heading.columns room) (count : Nat) :
    (Handle.run ⟨some (midway source heading room count), world⟩
        (List.replicate (rows.length + 1) .next)).1 =
      (rows.map fun row => .frame (.ok (some (Layout.row 0 row heading.columns)))) ++
        [.frame (.ok none)] := by
  induction rows generalizing source world count with
  | nil =>
      obtain ⟨last, after, asked⟩ :=
        writeNext_midway_of_nil course heading room count { limit := room }
      rw [List.length_nil, List.replicate_one, Handle.run, Handle.call_next asked]
      rfl
  | cons row rows ih =>
      obtain ⟨later, after, rest, asked⟩ :=
        writeNext_midway_of_cons course (fits row List.mem_cons_self).laid count
      have answers := ih rest (fun row member => fits row (List.mem_cons_of_mem _ member)) (count + 1)
      rw [List.length_cons, List.replicate_succ, Handle.run, Handle.call_next asked]
      exact congrArg (_ :: ·) answers

theorem fill_midway (course : Source.course source world = { items := rows })
    (fits : ∀ row ∈ rows, row.Fits heading.columns room) (count : Nat)
    (aligned : wordSize ∣ buf.size)
    (space : (rows.map (Layout.row 0 · heading.columns)).flatten.length ≤ buf.remaining) :
    (midway source heading room count).fill buf world (rows.length + 1) =
      (buf.stages (rows.map (Layout.row 0 · heading.columns))).map (fun stage => (.ok true, stage)) ++
        [(.ok false, buf.append (rows.map (Layout.row 0 · heading.columns)).flatten)] := by
  induction rows generalizing source world count buf with
  | nil =>
      obtain ⟨last, after, asked⟩ := writeNext_midway_of_nil course heading room count buf
      rw [List.length_nil, fill, asked]
      rw [List.map_nil, List.flatten_nil, buf.append_nil]
      rfl
  | cons row rows ih =>
      rw [List.map_cons, List.flatten_cons, List.length_append] at space
      have laid := Write.putRow_of_aligned (fits row List.mem_cons_self).laid aligned (by omega)
      obtain ⟨later, after, rest, asked⟩ := writeNext_midway_of_cons course laid count
      have stays : wordSize ∣ (buf.append (Layout.row 0 row heading.columns)).size := by
        have ends := Layout.dvd_add_row row heading.columns (Nat.dvd_zero wordSize)
        rw [Nat.zero_add] at ends
        rw [Buffer.size_append]
        exact Nat.dvd_add aligned ends
      have left := buf.remaining_append (Layout.row 0 row heading.columns)
      have others := ih rest (fun row member => fits row (List.mem_cons_of_mem _ member))
        (count + 1) stays (by omega)
      rw [List.length_cons, fill, asked]
      simp only
      rw [others, Buffer.append_append]
      rfl

theorem messages_midway (course : Source.course source world = { items := rows })
    (fits : ∀ row ∈ rows, row.Fits heading.columns room) (count : Nat) :
    (midway source heading room count).messages world =
      { items := rows.map fun row =>
          Message.rowTag.toBytes ++ (Layout.row 0 row heading.columns).drop wordSize } := by
  rw [messages, course_of_free _ world rfl rfl rfl, course]
  exact Course.through_of_ok (fun row member => Row.message_of_ok (fits row member).laid) none

/-- The frames of the rows of a source, each written into a buffer of its own, are what is
appended to one buffer from any word boundary on, and what the messages carry. Sources are finite
lists of outcomes (see `Source`). -/
theorem rows_produced_alike (source : σ) (world : ω) (heading : Heading) (room : Nat)
    (rows : List Row) (yields : Source.course source world = { items := rows })
    (fits : ∀ row ∈ rows, row.Fits heading.columns room) (buf : Buffer)
    (aligned : wordSize ∣ buf.size) (sink : Sink) (taking : ∀ n, sink.answer n = .ok .taken) :
    let scan := Scan.start source heading room
    let frames := rows.map (Layout.row 0 · heading.columns)
    (Handle.run ⟨some scan, world⟩ (List.replicate (rows.length + 1) .next)).1 =
        frames.map (fun frame => .frame (.ok (some frame))) ++ [.frame (.ok none)] ∧
      (frames.flatten.length ≤ buf.remaining →
        scan.fill buf world (rows.length + 1) =
          (buf.stages frames).map (fun stage => (.ok true, stage)) ++
            [(.ok false, buf.append frames.flatten)]) ∧
      ∃ messages,
        (scan.deliver sink world).sink.offered =
          sink.offered ++ (messages ++ [Message.endMark]) ∧
        messages.map Message.unwrap = frames := by
  intro scan frames
  have follows := deliverRows_follows scan sink world {} (.inl rfl)
  have messages : scan.messages world = _ := messages_midway yields fits 0
  obtain ⟨offered, -⟩ := follows.whole fun n _ => taking n
  rw [messages] at offered
  refine ⟨?_, fill_midway yields fits 0 aligned, _, offered, ?_⟩
  · rw [List.map_map]
    exact run_next_midway yields fits 0
  · rw [List.map_map]
    exact List.map_congr_left fun row _ => Message.unwrap_frame _

/-- Rows of unlike length, and a buffer that already holds a word. -/
theorem rows_produced_alike_behind_word :
    let rows : List Row := [[⟨[1, 2, 3], [102], [1], [1]⟩], [⟨[4], [103], [1], [1, 2]⟩]]
    let source : Script := { results := rows.map (.ok ∘ some) ++ [.ok none] }
    let heading : Heading := ⟨[.rowKey, .family [102], .leaf [102] [1]], by decide⟩
    let scan : Scan Script := Scan.start source heading 64
    let buf : Buffer := { bytes := [9, 9, 9, 9], limit := 128 }
    let frames := rows.map (Layout.row 0 · heading.columns)
    frames.map List.length = [48, 36] ∧
      (scan.fill buf {} 3).map (fun stage => stage.2.size) = [52, 88, 88] ∧
      ∃ messages, (scan.deliver {} {}).sink.offered = messages ++ [Message.endMark] ∧
        messages.map Message.unwrap = frames := by
  intro rows source heading scan buf frames
  have writable : ∀ row ∈ rows, Layout.Writable 0 row heading.columns ∧
      (Layout.row 0 row heading.columns).length ≤ 64 := by decide +kernel
  have fits : ∀ row ∈ rows, row.Fits heading.columns 64 := fun row member =>
    Row.fits_of_writable (writable row member).1 (writable row member).2
  have yields : Source.course source ({} : Traffic) = { items := rows } := by decide +kernel
  obtain ⟨-, filled, messages, offered, unwrapped⟩ :=
    rows_produced_alike source {} heading 64 rows yields fits buf (by decide) {} (fun _ => rfl)
  refine ⟨by decide +kernel, ?_, messages, offered, unwrapped⟩
  have stages : scan.fill buf {} 3 = _ := filled (by decide +kernel)
  rw [stages]
  decide +kernel

end Scan

end TupleWire
