import TupleWire.Proofs.Scan.Mirroring

/-! A source whose answers are recorded. The record is only watched: under the same calls a
scan of the recorded source does what a scan of the source itself does. -/
namespace TupleWire

variable {σ ω : Type} [Source σ ω]

/-- The answers of a source to all fetches, the first one first. -/
abbrev Record := List (Except Error (Option Row))

structure Recorded (σ : Type) where
  source : σ

namespace Recorded

def fetch (recorded : Recorded σ) (world : ω × Record) : Fetched (Recorded σ) (ω × Record) :=
  let fetched := Source.fetch recorded.source world.1
  { result := fetched.result, source := ⟨fetched.source⟩
    world := (fetched.world, world.2 ++ [fetched.result]) }

def release (recorded : Recorded σ) (world : ω × Record) :
    Released (Recorded σ) (ω × Record) :=
  let released := Source.release recorded.source world.1
  { result := released.result, source := ⟨released.source⟩, world := (released.world, world.2) }

instance : Source (Recorded σ) (ω × Record) where
  fetch := fetch
  release := release
  supply recorded := Source.supply recorded.source
  supply_lt_of_fetch recorded world row := Source.supply_lt_of_fetch recorded.source world.1 row

end Recorded

def Scan.recorded (scan : Scan σ) : Scan (Recorded σ) :=
  { source := scan.source.map Recorded.mk, heading := scan.heading, room := scan.room
    held := scan.held, phase := scan.phase, rows := scan.rows }

def Scan.unrecorded (scan : Scan (Recorded σ)) : Scan σ :=
  { source := scan.source.map Recorded.source, heading := scan.heading, room := scan.room
    held := scan.held, phase := scan.phase, rows := scan.rows }

def Recorded.mirror : Mirror (Recorded σ) (ω × Record) σ ω where
  source := Recorded.source
  world := Prod.fst
  fetch _ _ := rfl
  release _ _ := rfl

namespace Handle

def recorded (handle : Handle σ ω) : Handle (Recorded σ) (ω × Record) :=
  ⟨handle.scan.map Scan.recorded, (handle.world, [])⟩

def unrecorded (handle : Handle (Recorded σ) (ω × Record)) : Handle σ ω :=
  ⟨handle.scan.map Scan.unrecorded, handle.world.1⟩

/-- What the source answers to a scan while the calls are made. -/
def answered (handle : Handle σ ω) (calls : List Call) : Record :=
  (handle.recorded.run calls).2.world.2

theorem unrecorded_call (handle : Handle (Recorded σ) (ω × Record)) (call : Call) :
    ((handle.call call).1, (handle.call call).2.unrecorded) = handle.unrecorded.call call :=
  (Recorded.mirror.call handle call).symm

theorem unrecorded_run (handle : Handle (Recorded σ) (ω × Record)) (calls : List Call) :
    ((handle.run calls).1, (handle.run calls).2.unrecorded) = handle.unrecorded.run calls :=
  (Recorded.mirror.run handle calls).symm

omit [Source σ ω] in
theorem unrecorded_recorded (handle : Handle σ ω) : handle.recorded.unrecorded = handle := by
  obtain ⟨scan, world⟩ := handle
  cases scan with
  | none => rfl
  | some scan =>
      obtain ⟨source, heading, room, held, phase, rows⟩ := scan
      cases source with
      | none => rfl
      | some source => rfl

end Handle

end TupleWire
