import TupleWire.Registry
import TupleWire.Scan.History
import TupleWire.Store.Cursor

/-! Sessions on a store: any number of scans and of bare cursors, side by side. -/
namespace TupleWire

/-- The store, what it has counted, and the scans and cursors in use. -/
structure Session where
  store : Store
  counters : Counters := {}
  scans : Registry (Scan Cursor) := []
  cursors : Registry Cursor := []

inductive Action where
  | startScan (id : String) (table : Bytes) (heading : Heading) (room : Nat)
  | call (id : String) (call : Call)
  | openCursor (id : String) (table : Bytes) (selection : Selection)
  | fetch (id : String)
  | closeCursor (id : String)
  | dropCursor (id : String)

inductive Effect where
  | opened (result : Except Error Unit)
  | answered (answer : Answer)
  | fetched (result : Except Error (Option Row))
  | closed
  | dropped
  | noCursor

namespace Session

/-- Starts a scan in place of an earlier one of that name, which is thereby dropped. On
failure the earlier one stays. -/
def startScan (session : Session) (id : String) (table : Bytes) (heading : Heading)
    (room : Nat) : Effect × Session :=
  match session.store.startScan table heading room session.counters with
  | (.error e, counters) => (.opened (.error e), { session with counters })
  | (.ok scan, counters) =>
      let earlier : Handle Cursor Counters := ⟨session.scans.get? id, counters⟩
      let (_, left) := earlier.call .drop
      (.opened (.ok ()),
        { session with
          counters := left.world
          scans := session.scans.set id scan })

def call (session : Session) (id : String) (call : Call) : Effect × Session :=
  let handle : Handle Cursor Counters := ⟨session.scans.get? id, session.counters⟩
  let (answer, left) := handle.call call
  let scans := match left.scan with
    | some scan => session.scans.set id scan
    | none => session.scans.erase id
  (.answered answer, { session with counters := left.world, scans })

/-- A cursor in use is replaced without being closed. -/
def openCursor (session : Session) (id : String) (table : Bytes) (selection : Selection) :
    Effect × Session :=
  match session.store.openCursor table selection session.counters with
  | (.error e, counters) => (.opened (.error e), { session with counters })
  | (.ok cursor, counters) =>
      (.opened (.ok ()), { session with counters, cursors := session.cursors.set id cursor })

def fetch (session : Session) (id : String) : Effect × Session :=
  match session.cursors.get? id with
  | none => (.noCursor, session)
  | some cursor =>
      let fetched := cursor.fetch session.counters
      (.fetched fetched.result,
        { session with
          counters := fetched.world
          cursors := session.cursors.set id fetched.source })

def closeCursor (session : Session) (id : String) : Effect × Session :=
  match session.cursors.get? id with
  | none => (.noCursor, session)
  | some cursor =>
      let released := cursor.release session.counters
      (.closed,
        { session with
          counters := released.world
          cursors := session.cursors.set id released.source })

def perform (session : Session) : Action → Effect × Session
  | .startScan id table heading room => session.startScan id table heading room
  | .call id call => session.call id call
  | .openCursor id table selection => session.openCursor id table selection
  | .fetch id => session.fetch id
  | .closeCursor id => session.closeCursor id
  | .dropCursor id => (.dropped, { session with cursors := session.cursors.erase id })

/-- Performs the actions in order, and gives their effects. -/
def run (session : Session) : List Action → List Effect × Session
  | [] => ([], session)
  | first :: rest =>
      let (effect, session) := session.perform first
      let (effects, session) := session.run rest
      (effect :: effects, session)

/-- Drops all scans and all cursors. Only scans close their cursors. -/
def finish (session : Session) : Session :=
  let drop (session : Session) (id : String) : Session := (session.call id .drop).2
  { (session.scans.map Prod.fst).foldl drop session with cursors := [] }

end Session

end TupleWire
