import TupleWire.Frame.Composition
import TupleWire.Scan.Source

/-! Scans: rows fetched one at a time from a source and encoded into row frames. A row
that was fetched and did not fit is held and tried again; it is never fetched twice. -/
namespace TupleWire

/-- How far a scan has come. -/
inductive Phase where
  | running
  | exhausted
  | closed
  | aborted (after : FaultKind)
  deriving DecidableEq, Repr

/-- A scan. The source is present until it is released; `held` is a row fetched and not
yet encoded; `room` is the size of the buffers that the scan itself provides, one for each
row; `rows` counts the rows encoded. -/
structure Scan (σ : Type) where
  source : Option σ
  heading : Heading
  room : Nat
  held : Option Row := none
  phase : Phase
  rows : Nat := 0

/-- What a call that may write a row gives and what it leaves. -/
structure Turn (σ ω : Type) where
  result : Except Error Bool
  scan : Scan σ
  buf : Buffer
  world : ω

namespace Scan

variable {σ ω : Type}

/-- Room for one row where none is asked for. -/
def defaultRoom : Nat := 0x10000

def start (source : σ) (heading : Heading) (room : Nat := defaultRoom) : Scan σ :=
  { source := some source, heading, room, phase := .running }

/-- A scan that is known to match nothing; it has no source. -/
def empty (heading : Heading) (room : Nat := defaultRoom) : Scan σ :=
  { source := none, heading, room, phase := .exhausted }

def holdsRow (scan : Scan σ) : Bool := scan.held.isSome

def isReleased (scan : Scan σ) : Bool := scan.source.isNone

variable [Source σ ω]

/-- Releases the source, if it is still held; whatever the release gives is ignored. An
aborted scan stays aborted. -/
def close (scan : Scan σ) (world : ω) : Scan σ × ω :=
  let phase := match scan.phase with
    | .aborted after => .aborted after
    | _ => .closed
  let world := match scan.source with
    | none => world
    | some source => (Source.release source world).world
  ({ scan with source := none, held := none, phase }, world)

/-- Ends the scan after a failure that no later call can mend. -/
def fail (scan : Scan σ) (after : FaultKind) (world : ω) : Scan σ × ω :=
  let (closed, world) := scan.close world
  ({ closed with phase := .aborted after }, world)

/-- Encodes a row that was taken out of the scan. For want of room it is put back;
after any other failure the scan is over. The failure is told with the row's key. -/
def encode (scan : Scan σ) (row : Row) (buf : Buffer) (world : ω) : Turn σ ω :=
  match (Write.putRow row scan.heading.columns).on buf with
  | (.ok _, buf) =>
      { result := .ok true, scan := { scan with rows := scan.rows + 1 }, buf, world }
  | (.error e, buf) =>
      let told := match row.key? with
        | some key => e.atRow key
        | none => e
      if e.retryable then
        { result := .error told, scan := { scan with held := some row }, buf, world }
      else
        let (scan, world) := scan.fail e.kind world
        { result := .error told, scan, buf, world }

/-- Appends the next row frame to `buf`; false once no row is left. -/
def writeNext (scan : Scan σ) (buf : Buffer) (world : ω) : Turn σ ω :=
  match scan.phase with
  | .exhausted | .closed => { result := .ok false, scan, buf, world }
  | .aborted after => { result := .error { fault := .scanAborted after }, scan, buf, world }
  | .running =>
      match scan.source, scan.held with
      | none, _ =>
          { result := .ok false, scan := { scan with phase := .exhausted }, buf, world }
      | some _, some row => { scan with held := none }.encode row buf world
      | some source, none =>
          let fetched := Source.fetch source world
          let scan := { scan with source := some fetched.source }
          match fetched.result with
          | .ok (some row) => scan.encode row buf fetched.world
          | .ok none =>
              { result := .ok false, scan := { scan with phase := .exhausted }, buf
                world := fetched.world }
          | .error e =>
              let (scan, world) := scan.fail e.kind fetched.world
              { result := .error e, scan, buf, world }

/-- The buffer that a scan provides for one row. -/
def freshBuf (scan : Scan σ) : Buffer := { limit := scan.room }

/-- Bounds the number of rows that can still be encoded. -/
def supply (scan : Scan σ) : Nat :=
  (scan.source.map Source.supply).getD 0 + scan.held.toList.length

theorem supply_encode {scan : Scan σ} {row : Row} {buf : Buffer} {world : ω}
    (h : (scan.encode row buf world).result = .ok true) :
    (scan.encode row buf world).scan.supply = scan.supply := by
  unfold encode at h ⊢
  split
  · rfl
  · next failed =>
      simp only [failed] at h
      split at h <;> cases h

theorem supply_writeNext_lt {scan : Scan σ} {buf : Buffer} {world : ω}
    (h : (scan.writeNext buf world).result = .ok true) :
    (scan.writeNext buf world).scan.supply < scan.supply := by
  obtain ⟨source, heading, room, held, phase, rows⟩ := scan
  cases phase with
  | exhausted => cases h
  | closed => cases h
  | aborted after => cases h
  | running =>
      cases source with
      | none => cases h
      | some source =>
          cases held with
          | some row =>
              simp only [writeNext] at h ⊢
              rw [supply_encode h]
              simp [supply]
          | none =>
              simp only [writeNext] at h ⊢
              split at h
              · next row fetched =>
                  rw [supply_encode h]
                  simpa [supply] using Source.supply_lt_of_fetch source world row fetched
              · cases h
              · cases h

end Scan

end TupleWire
