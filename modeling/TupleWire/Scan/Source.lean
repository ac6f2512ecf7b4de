import TupleWire.Cell
import TupleWire.Fault

/-! Sources of rows. A source acts on a world, such as the counters of its store; both
are passed from call to call. -/
namespace TupleWire

/-- What a fetch gives (a row, the end of the data, or a failure), and what it leaves. -/
structure Fetched (σ ω : Type) where
  result : Except Error (Option Row)
  source : σ
  world : ω

structure Released (σ ω : Type) where
  result : Except Error Unit
  source : σ
  world : ω

/-- Sources that are finite: `supply` bounds the number of rows still to come, so every delivery
comes to an end. What is said of all sources is said of these; one that gives rows for ever is none
of them. For a scan such a source is a list of outcomes, as a `Script` is. -/
class Source (σ : Type) (ω : outParam Type) where
  fetch : σ → ω → Fetched σ ω
  release : σ → ω → Released σ ω
  supply : σ → Nat
  supply_lt_of_fetch (source : σ) (world : ω) (row : Row) :
    (fetch source world).result = .ok (some row) →
      supply (fetch source world).source < supply source

/-- The numbers of calls that a source has received. -/
structure Traffic where
  fetches : Nat := 0
  releases : Nat := 0
  deriving DecidableEq, Repr

/-- A source that is told in advance what its fetches give, in order. Past the last of
them the data is at its end. Its release fails where a failure is given for it. -/
structure Script where
  results : List (Except Error (Option Row))
  releaseError : Option Error := none

namespace Script

def fetch (script : Script) (traffic : Traffic) : Fetched Script Traffic :=
  let counted := { traffic with fetches := traffic.fetches + 1 }
  match script.results with
  | [] => { result := .ok none, source := script, world := counted }
  | result :: results => { result, source := { script with results }, world := counted }

def release (script : Script) (traffic : Traffic) : Released Script Traffic :=
  { result := match script.releaseError with
      | none => .ok ()
      | some e => .error e
    source := script
    world := { traffic with releases := traffic.releases + 1 } }

instance : Source Script Traffic where
  fetch := fetch
  release := release
  supply script := script.results.length
  supply_lt_of_fetch script traffic row h := by
    cases results : script.results with
    | nil => simp [fetch, results] at h
    | cons result rest => simp [fetch, results]

end Script

end TupleWire
