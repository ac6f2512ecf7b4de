import TupleWire.Proofs.Scan.Delivering
import TupleWire.Proofs.Scan.Encoding
import TupleWire.Scan.History

/-! What a scan keeps. It does nothing with its source but fetch from it and release it, once, so
what fetches keep of a source and of its world holds while the scan has the source, and what a
release makes of that holds from then on. -/
namespace TupleWire

variable {σ ω : Type} [Source σ ω]

/-- The source of the scan, until it is released or the scan is dropped. -/
def Handle.source? (handle : Handle σ ω) : Option σ := handle.scan.bind Scan.source

/-- A property of sources in their world that fetches keep, and what a release makes of it. -/
structure Keeping (σ ω : Type) [Source σ ω] where
  held : σ → ω → Prop
  gone : ω → Prop
  fetch {source : σ} {world : ω} (kept : held source world) :
    held (Source.fetch source world).source (Source.fetch source world).world
  release {source : σ} {world : ω} (kept : held source world) :
    gone (Source.release source world).world

namespace Keeping

variable (keeping : Keeping σ ω)

/-- What holds of a source that may be gone. -/
def At (source? : Option σ) (world : ω) : Prop :=
  match source? with
  | some source => keeping.held source world
  | none => keeping.gone world

variable {keeping} {scan : Scan σ} {world : ω}

theorem close (kept : keeping.At scan.source world) : keeping.gone (scan.close world).2 := by
  obtain ⟨source, heading, room, held, phase, rows⟩ := scan
  cases source with
  | none => exact kept
  | some source => exact keeping.release kept

theorem fed (kept : keeping.At scan.source world) {source : σ}
    (present : scan.source = some source) :
    keeping.At (some (Source.fetch source world).source) (Source.fetch source world).world := by
  rw [present] at kept
  exact keeping.fetch kept

section Call

variable (kept : keeping.At scan.source world) (buf : Buffer)
include kept

theorem encode (row : Row) :
    keeping.At (scan.encode row buf world).scan.source (scan.encode row buf world).world := by
  refine Scan.encode_cases scan row buf world ?_ ?_ ?_
  · intro frame _
    exact kept
  · intro e _ _
    exact kept
  · intro e _ _
    exact close kept

theorem writeNext :
    keeping.At (scan.writeNext buf world).scan.source (scan.writeNext buf world).world := by
  refine Scan.writeNext_cases scan buf world ?_ ?_ ?_ ?_ ?_ ?_ ?_
  · intro _
    exact kept
  · intro after _
    exact kept
  · intro _ _
    exact kept
  · intro source row _ _ _
    have same : keeping.At { scan with held := none }.source world := kept
    exact encode same buf row
  · intro source row _ present _ _
    have after : keeping.At { scan with source := some (Source.fetch source world).source }.source
        (Source.fetch source world).world := fed kept present
    exact encode after buf row
  · intro source _ present _ _
    exact fed kept present
  · intro source e _ present _ _
    have after : keeping.At { scan with source := some (Source.fetch source world).source }.source
        (Source.fetch source world).world := fed kept present
    exact close after

omit buf in
theorem deliverRows (sink : Sink) (tally : Tally) :
    keeping.At (scan.deliverRows sink world tally).scan.source
      (scan.deliverRows sink world tally).world := by
  obtain ⟨last, seen, asked, scan, world⟩ := scan.exists_asked sink world tally
  have here : keeping.At last.source seen :=
    asked.keeps (motive := fun scan world => keeping.At scan.source world)
      (fun scan world kept => writeNext kept scan.freshBuf) kept
  rw [scan, world]
  exact writeNext here last.freshBuf

end Call

/-- What is kept of the source of a scan is kept by every call. -/
theorem call {handle : Handle σ ω} (kept : keeping.At handle.source? handle.world) (call : Call) :
    keeping.At (handle.call call).2.source? (handle.call call).2.world := by
  obtain ⟨scan, world⟩ := handle
  cases scan with
  | none =>
      cases call with
      | _ => exact kept
  | some scan =>
      cases call with
      | next => exact writeNext kept scan.freshBuf
      | writeNext buf => exact writeNext kept buf
      | close => exact close kept
      | deliver answers => exact close (deliverRows kept { answers } {})
      | drop => exact close kept

/-- Without its source a scan touches nothing. -/
def untouched (world : ω) : Keeping σ ω where
  held _ _ := False
  gone left := left = world
  fetch := False.elim
  release := False.elim

end Keeping

theorem Handle.call_of_gone {handle : Handle σ ω} (gone : handle.source? = none) (call : Call) :
    (handle.call call).2.source? = none ∧ (handle.call call).2.world = handle.world := by
  let keeping : Keeping σ ω := .untouched handle.world
  have kept : keeping.At handle.source? handle.world := by
    rw [gone]
    rfl
  have after := Keeping.call kept call
  cases left : (handle.call call).2.source? with
  | some source =>
      rw [left] at after
      exact after.elim
  | none =>
      rw [left] at after
      exact ⟨rfl, after⟩

end TupleWire
