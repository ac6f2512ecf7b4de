import TupleWire.Proofs.Scan.Mirroring

/-! A source whose calls are noted, fetches and releases, and what a scan has it do. -/
namespace TupleWire

variable {σ ω : Type} [Source σ ω]

/-- A call that a source has received, and what it gave. -/
inductive Contact where
  | fetched (result : Except Error (Option Row))
  | released (result : Except Error Unit)

namespace Contact

def isFetch : Contact → Bool
  | .fetched _ => true
  | .released _ => false

def isRelease : Contact → Bool
  | .fetched _ => false
  | .released _ => true

def givesRow : Contact → Bool
  | .fetched (.ok (some _)) => true
  | _ => false

end Contact

structure Watched (σ : Type) where
  source : σ

namespace Watched

def fetch (watched : Watched σ) (world : ω × List Contact) :
    Fetched (Watched σ) (ω × List Contact) :=
  let fetched := Source.fetch watched.source world.1
  { result := fetched.result, source := ⟨fetched.source⟩
    world := (fetched.world, world.2 ++ [.fetched fetched.result]) }

def release (watched : Watched σ) (world : ω × List Contact) :
    Released (Watched σ) (ω × List Contact) :=
  let released := Source.release watched.source world.1
  { result := released.result, source := ⟨released.source⟩
    world := (released.world, world.2 ++ [.released released.result]) }

instance : Source (Watched σ) (ω × List Contact) where
  fetch := fetch
  release := release
  supply watched := Source.supply watched.source
  supply_lt_of_fetch watched world row := Source.supply_lt_of_fetch watched.source world.1 row

theorem log_fetch (source : Watched σ) (world : ω × List Contact) :
    (Source.fetch source world).world.2 =
      world.2 ++ [.fetched (Source.fetch source world).result] := rfl

def mirror : Mirror (Watched σ) (ω × List Contact) σ ω where
  source := Watched.source
  world := Prod.fst
  fetch _ _ := rfl
  release _ _ := rfl

end Watched

def Scan.watched (scan : Scan σ) : Scan (Watched σ) :=
  { source := scan.source.map Watched.mk, heading := scan.heading, room := scan.room
    held := scan.held, phase := scan.phase, rows := scan.rows }

theorem Scan.mirror_watched (scan : Scan σ) : Watched.mirror.scan scan.watched = scan := by
  obtain ⟨source, heading, room, held, phase, rows⟩ := scan
  cases source with
  | none => rfl
  | some source => rfl

theorem Scan.fetches_close (scan : Scan (Watched σ)) (world : ω × List Contact) :
    (scan.close world).2.2.countP Contact.isFetch = world.2.countP Contact.isFetch := by
  obtain ⟨source, heading, room, held, phase, rows⟩ := scan
  cases source with
  | none => rfl
  | some source => exact List.countP_append.trans (Nat.add_zero _)

namespace Handle

def watched (handle : Handle σ ω) : Handle (Watched σ) (ω × List Contact) :=
  ⟨handle.scan.map Scan.watched, (handle.world, [])⟩

/-- What the source of a scan is called for while the calls are made, in order. -/
def contacts (handle : Handle σ ω) (calls : List Call) : List Contact :=
  (handle.watched.run calls).2.world.2

theorem mirror_watched (handle : Handle σ ω) : Watched.mirror.handle handle.watched = handle := by
  obtain ⟨scan, world⟩ := handle
  cases scan with
  | none => rfl
  | some scan => exact congrArg (Handle.mk · world) (congrArg some scan.mirror_watched)

/-- The notes change nothing in what is answered. -/
theorem run_watched (handle : Handle σ ω) (calls : List Call) :
    handle.run calls =
      ((handle.watched.run calls).1, Watched.mirror.handle (handle.watched.run calls).2) := by
  have same := Watched.mirror.run handle.watched calls
  rwa [mirror_watched] at same

theorem call_run_watched (handle : Handle σ ω) (calls : List Call) (call : Call) :
    ((handle.run calls).2.call call).1 = ((handle.watched.run calls).2.call call).1 := by
  rw [run_watched, Watched.mirror.call]

end Handle

end TupleWire
