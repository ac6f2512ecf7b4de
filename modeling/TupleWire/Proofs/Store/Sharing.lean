import Mathlib.Algebra.BigOperators.Group.Finset.Basic
import Mathlib.Algebra.BigOperators.Group.Finset.Piecewise
import TupleWire.Proofs.Scan.Mirroring
import TupleWire.Store.Session

/-! Scans and cursors side by side. Nothing that a cursor gives depends on what the store has
counted, and to count is to add, so what is done with one scan or cursor comes out as if nothing
else were done in the session, and the session counts what each of them counts alone. -/
namespace TupleWire

namespace Counters

instance : Zero Counters := ⟨{}⟩

instance : Add Counters :=
  ⟨fun counters more =>
    { opens := counters.opens + more.opens
      fetches := counters.fetches + more.fetches
      closes := counters.closes + more.closes }⟩

theorem ext {counters other : Counters} (opens : counters.opens = other.opens)
    (fetches : counters.fetches = other.fetches) (closes : counters.closes = other.closes) :
    counters = other := by
  obtain ⟨_, _, _⟩ := counters
  obtain ⟨_, _, _⟩ := other
  exact (Counters.mk.injEq ..).mpr ⟨opens, fetches, closes⟩

instance : AddCommMonoid Counters where
  add_assoc _ _ _ := ext (Nat.add_assoc _ _ _) (Nat.add_assoc _ _ _) (Nat.add_assoc _ _ _)
  add_comm _ _ := ext (Nat.add_comm _ _) (Nat.add_comm _ _) (Nat.add_comm _ _)
  zero_add _ := ext (Nat.zero_add _) (Nat.zero_add _) (Nat.zero_add _)
  add_zero _ := rfl
  nsmul := nsmulRec

variable (counters more : Counters)

theorem opened_add : { counters with opens := counters.opens + 1 } + more =
    { counters + more with opens := (counters + more).opens + 1 } :=
  ext (Nat.add_right_comm _ _ _) rfl rfl

theorem fetched_add : { counters with fetches := counters.fetches + 1 } + more =
    { counters + more with fetches := (counters + more).fetches + 1 } :=
  ext rfl (Nat.add_right_comm _ _ _) rfl

theorem closed_add : { counters with closes := counters.closes + 1 } + more =
    { counters + more with closes := (counters + more).closes + 1 } :=
  ext rfl rfl (Nat.add_right_comm _ _ _)

end Counters

namespace Cursor

variable (cursor : Cursor) (counters more : Counters)

theorem fetch_adding : cursor.fetch (counters + more) =
    { result := (cursor.fetch counters).result, source := (cursor.fetch counters).source
      world := (cursor.fetch counters).world + more } := by
  unfold fetch
  cases cursor.rows with
  | none => rfl
  | some rows =>
      simp only
      rw [← Counters.fetched_add]
      cases cursor.selection.firstRow? rows with
      | none => rfl
      | some found => rfl

theorem release_adding : cursor.release (counters + more) =
    { result := (cursor.release counters).result, source := (cursor.release counters).source
      world := (cursor.release counters).world + more } := by
  unfold release
  cases cursor.rows with
  | none => rfl
  | some rows =>
      simp only [Option.isSome_some, if_true]
      rw [← Counters.closed_add]

def mirror : Mirror Cursor Counters Cursor Counters where
  source := id
  world := (· + more)
  fetch cursor counters := cursor.fetch_adding counters more
  release cursor counters := congrArg Released.world (cursor.release_adding counters more)

end Cursor

theorem Cursor.mirror_scan (more : Counters) (scan : Scan Cursor) :
    (Cursor.mirror more).scan scan = scan := by
  obtain ⟨source, heading, room, held, phase, rows⟩ := scan
  cases source with
  | _ => rfl

theorem Handle.call_adding (scan : Option (Scan Cursor)) (counters more : Counters) (call : Call) :
    (Handle.mk scan (counters + more)).call call =
      (((Handle.mk scan counters).call call).1,
        { scan := ((Handle.mk scan counters).call call).2.scan
          world := ((Handle.mk scan counters).call call).2.world + more }) := by
  have same (handle : Handle Cursor Counters) : (Cursor.mirror more).handle handle =
      { handle with world := handle.world + more } := by
    obtain ⟨scan, world⟩ := handle
    cases scan with
    | none => rfl
    | some scan =>
        exact congrArg (Handle.mk · (world + more)) (congrArg some (Cursor.mirror_scan more scan))
  have called := (Cursor.mirror more).call ⟨scan, counters⟩ call
  rwa [same, same] at called

namespace Registry

variable {α : Type} {registry : Registry α} {name other : String}

def only (registry : Registry α) (name : String) : Registry α :=
  match registry.get? name with
  | none => []
  | some value => [(name, value)]

theorem only_of_none (missing : registry.get? name = none) : registry.only name = [] := by
  rw [only, missing]

theorem only_of_some {value : α} (found : registry.get? name = some value) :
    registry.only name = [(name, value)] := by
  rw [only, found]

theorem get?_only (registry : Registry α) (name : String) :
    (registry.only name).get? name = registry.get? name := by
  cases found : registry.get? name with
  | none => rw [only_of_none found, get?, List.lookup_nil]
  | some value => rw [only_of_some found, get?, List.lookup_cons_self]

theorem erase_only (registry : Registry α) (name : String) :
    (registry.only name).erase name = [] := by
  cases found : registry.get? name with
  | none => rw [only_of_none found, erase, List.filter_nil]
  | some value => simp [only_of_some found, erase]

theorem only_erase_self (registry : Registry α) (name : String) :
    (registry.erase name).only name = (registry.only name).erase name := by
  have missing : (registry.erase name).get? name = none := by rw [get?_erase, if_pos rfl]
  rw [only_of_none missing, erase_only]

theorem only_set_self (registry : Registry α) (name : String) (value : α) :
    (registry.set name value).only name = (registry.only name).set name value := by
  have found : (registry.set name value).get? name = some value := by rw [get?_set, if_pos rfl]
  rw [only_of_some found, set, erase_only]

theorem only_erase_of_ne (different : other ≠ name) :
    (registry.erase name).only other = registry.only other := by
  rw [only, get?_erase, if_neg different, only]

theorem only_set_of_ne (different : other ≠ name) (value : α) :
    (registry.set name value).only other = registry.only other := by
  rw [only, get?_set, if_neg different, only]

end Registry

/-- Who acts in a session: a scan or a bare cursor, by its name. -/
inductive Party where
  | scan (id : String)
  | cursor (id : String)
  deriving DecidableEq, Repr

def Action.party : Action → Party
  | .startScan id _ _ _ | .call id _ => .scan id
  | .openCursor id _ _ | .fetch id | .closeCursor id | .dropCursor id => .cursor id

def Party.acts (party : Party) (action : Action) : Bool := party = action.party

theorem Action.acts_self (action : Action) : action.party.acts action = true := decide_eq_true rfl

theorem Party.acts_of_ne {party : Party} {action : Action} (other : party ≠ action.party) :
    ¬ party.acts action = true := fun own => other (of_decide_eq_true own)

namespace Session

/-- The session when that much more was counted before. -/
def adding (session : Session) (more : Counters) : Session :=
  { session with counters := session.counters + more }

/-- The session if no one else acted in it, at a time when nothing is counted yet. -/
def alone (session : Session) : Party → Session
  | .scan id => { store := session.store, scans := session.scans.only id }
  | .cursor id => { store := session.store, cursors := session.cursors.only id }

theorem perform_adding (session : Session) (more : Counters) (action : Action) :
    (session.adding more).perform action =
      ((session.perform action).1, (session.perform action).2.adding more) := by
  cases action with
  | startScan id table heading room =>
      simp only [perform, startScan, adding, Store.startScan, Store.openCursor]
      cases session.store.table? table with
      | none => rfl
      | some rows =>
          simp only [Except.map]
          rw [← Counters.opened_add, Handle.call_adding]
  | call id call =>
      simp only [perform, Session.call, adding]
      rw [Handle.call_adding]
  | openCursor id table selection =>
      simp only [perform, openCursor, adding, Store.openCursor]
      cases session.store.table? table with
      | none => rfl
      | some rows =>
          simp only
          rw [← Counters.opened_add]
  | fetch id =>
      simp only [perform, fetch, adding]
      cases session.cursors.get? id with
      | none => rfl
      | some cursor =>
          simp only
          rw [Cursor.fetch_adding]
  | closeCursor id =>
      simp only [perform, closeCursor, adding]
      cases session.cursors.get? id with
      | none => rfl
      | some cursor =>
          simp only
          rw [Cursor.release_adding]
  | dropCursor id => rfl

theorem run_adding (session : Session) (more : Counters) (actions : List Action) :
    (session.adding more).run actions =
      ((session.run actions).1, (session.run actions).2.adding more) := by
  induction actions generalizing session with
  | nil => rfl
  | cons action actions ih =>
      simp only [run]
      rw [perform_adding, ih]

theorem alone_adding (session : Session) (party : Party) (more : Counters) :
    (session.alone party).adding more = { session.alone party with counters := more } := by
  cases party with
  | _ => exact congrArg (fun counters => Session.mk _ counters _ _) (zero_add more)

theorem perform_alone_of_zero {session : Session} (fresh : session.counters = 0)
    (action : Action) :
    (session.alone action.party).perform action =
      ((session.perform action).1,
        { (session.perform action).2.alone action.party with
          counters := (session.perform action).2.counters }) := by
  obtain ⟨store, counters, scans, cursors⟩ := session
  cases fresh
  cases action with
  | startScan id table heading room =>
      simp only [Action.party, alone, perform, startScan, Store.startScan, Store.openCursor]
      cases store.table? table with
      | none => rfl
      | some rows => simp only [Except.map, Registry.get?_only, Registry.only_set_self]
  | call id call =>
      simp only [Action.party, alone, perform, Session.call, Registry.get?_only]
      cases ((Handle.mk (scans.get? id) 0).call call).2.scan with
      | none => rw [Registry.only_erase_self]
      | some scan => rw [Registry.only_set_self]
  | openCursor id table selection =>
      simp only [Action.party, alone, perform, openCursor, Store.openCursor]
      cases store.table? table with
      | none => rfl
      | some rows => simp only [Registry.only_set_self]
  | fetch id =>
      simp only [Action.party, alone, perform, fetch, Registry.get?_only]
      cases cursors.get? id with
      | none => rfl
      | some cursor => simp only [Registry.only_set_self]
  | closeCursor id =>
      simp only [Action.party, alone, perform, closeCursor, Registry.get?_only]
      cases cursors.get? id with
      | none => rfl
      | some cursor => simp only [Registry.only_set_self]
  | dropCursor id => simp only [Action.party, alone, perform, Registry.only_erase_self]

section Other

variable (session : Session) {party : Party} {id : String} (counters : Counters)

theorem alone_scans {scans : Registry (Scan Cursor)} (other : party ≠ .scan id)
    (same : ∀ name, name ≠ id → scans.only name = session.scans.only name) :
    { session with counters, scans }.alone party = session.alone party := by
  cases party with
  | cursor name => rfl
  | scan name => rw [alone, same name (other ∘ congrArg Party.scan), alone]

theorem alone_cursors {cursors : Registry Cursor} (other : party ≠ .cursor id)
    (same : ∀ name, name ≠ id → cursors.only name = session.cursors.only name) :
    { session with counters, cursors }.alone party = session.alone party := by
  cases party with
  | scan name => rfl
  | cursor name => rw [alone, same name (other ∘ congrArg Party.cursor), alone]

theorem alone_counters : { session with counters }.alone party = session.alone party := by
  cases party with
  | _ => rfl

/-- To the others an action of one party changes nothing. -/
theorem alone_perform_of_ne {action : Action} (other : party ≠ action.party) :
    (session.perform action).2.alone party = session.alone party := by
  cases action with
  | startScan id table heading room =>
      simp only [perform, startScan, Store.startScan, Store.openCursor]
      cases session.store.table? table with
      | none => exact session.alone_counters _
      | some rows =>
          exact session.alone_scans _ other fun _ apart => Registry.only_set_of_ne apart _
  | call id call =>
      simp only [perform, Session.call]
      cases ((Handle.mk (session.scans.get? id) session.counters).call call).2.scan with
      | none => exact session.alone_scans _ other fun _ apart => Registry.only_erase_of_ne apart
      | some scan =>
          exact session.alone_scans _ other fun _ apart => Registry.only_set_of_ne apart _
  | openCursor id table selection =>
      simp only [perform, openCursor, Store.openCursor]
      cases session.store.table? table with
      | none => exact session.alone_counters _
      | some rows =>
          exact session.alone_cursors _ other fun _ apart => Registry.only_set_of_ne apart _
  | fetch id =>
      simp only [perform, fetch]
      cases session.cursors.get? id with
      | none => rfl
      | some cursor =>
          exact session.alone_cursors _ other fun _ apart => Registry.only_set_of_ne apart _
  | closeCursor id =>
      simp only [perform, closeCursor]
      cases session.cursors.get? id with
      | none => rfl
      | some cursor =>
          exact session.alone_cursors _ other fun _ apart => Registry.only_set_of_ne apart _
  | dropCursor id =>
      exact session.alone_cursors session.counters other
        fun _ apart => Registry.only_erase_of_ne apart

end Other

def cost (session : Session) (action : Action) : Counters :=
  ((session.alone action.party).perform action).2.counters

/-- An action comes out as it does alone, and counts what it counts alone. -/
theorem perform_alone (session : Session) (action : Action) :
    (session.alone action.party).perform action =
        ((session.perform action).1,
          ((session.perform action).2.alone action.party).adding (session.cost action)) ∧
      (session.perform action).2.counters = session.counters + session.cost action := by
  let fresh : Session := { session with counters := 0 }
  have same : session = fresh.adding session.counters :=
    congrArg (fun counters => { session with counters }) (zero_add session.counters).symm
  have performed : session.perform action = _ :=
    (congrArg (perform · action) same).trans (fresh.perform_adding session.counters action)
  have none : fresh.counters = 0 := rfl
  have solo := perform_alone_of_zero none action
  rw [show fresh.alone action.party = session.alone action.party from session.alone_counters 0]
    at solo
  have cost : session.cost action = (fresh.perform action).2.counters := by rw [Session.cost, solo]
  have rest : ((fresh.perform action).2.adding session.counters).alone action.party =
      (fresh.perform action).2.alone action.party := alone_counters _ _
  rw [solo, performed, cost]
  refine ⟨?_, add_comm _ _⟩
  simp only [rest, alone_adding]

/-- What the party does of these actions, in a session without the others. -/
def solo (session : Session) (party : Party) (actions : List Action) : List Effect × Session :=
  (session.alone party).run (actions.filter party.acts)

theorem solo_cons_self (session : Session) (action : Action) (actions : List Action) :
    session.solo action.party (action :: actions) =
      ((session.perform action).1 :: ((session.perform action).2.solo action.party actions).1,
        ((session.perform action).2.solo action.party actions).2.adding (session.cost action)) := by
  rw [solo, List.filter_cons_of_pos action.acts_self, run, (session.perform_alone action).1]
  simp only
  rw [run_adding, solo]

theorem solo_cons_of_ne (session : Session) {party : Party} {action : Action}
    (other : party ≠ action.party) (actions : List Action) :
    session.solo party (action :: actions) = (session.perform action).2.solo party actions := by
  rw [solo, List.filter_cons_of_neg (Party.acts_of_ne other), solo,
    session.alone_perform_of_ne other]

theorem counters_solo_cons (session : Session) (party : Party) (action : Action)
    (actions : List Action) :
    (session.solo party (action :: actions)).2.counters =
      ((session.perform action).2.solo party actions).2.counters +
        if party = action.party then session.cost action else 0 := by
  by_cases own : party = action.party
  · subst own
    rw [solo_cons_self, if_pos rfl, adding]
  · rw [solo_cons_of_ne session own, if_neg own, add_zero]

end Session

def Party.effects (party : Party) (actions : List Action) (effects : List Effect) : List Effect :=
  ((actions.zip effects).filter fun done => party.acts done.1).map Prod.snd

namespace Session

theorem effects_run (session : Session) (party : Party) (actions : List Action) :
    party.effects actions (session.run actions).1 = (session.solo party actions).1 := by
  induction actions generalizing session with
  | nil => rfl
  | cons action actions ih =>
      rw [run, Party.effects, List.zip_cons_cons, List.filter_cons]
      by_cases own : party = action.party
      · subst own
        rw [if_pos action.acts_self, List.map_cons, ← Party.effects, ih, solo_cons_self]
      · rw [if_neg (Party.acts_of_ne own), ← Party.effects, ih, solo_cons_of_ne session own]

/-- The session counts what all parties together count alone. -/
theorem counters_run (session : Session) {parties : Finset Party} {actions : List Action}
    (all : ∀ action ∈ actions, action.party ∈ parties) :
    (session.run actions).2.counters =
      session.counters + ∑ party ∈ parties, (session.solo party actions).2.counters := by
  induction actions generalizing session with
  | nil =>
    have none : ∀ party ∈ parties, (session.solo party []).2.counters = 0 := by
      intro party _
      cases party with
      | _ => rfl
    rw [Finset.sum_eq_zero none, add_zero, run]
  | cons action actions ih =>
      obtain ⟨first, others⟩ := List.forall_mem_cons.mp all
      simp only [counters_solo_cons]
      rw [run, ih _ others, (session.perform_alone action).2, Finset.sum_add_distrib,
        Finset.sum_ite_eq', if_pos first, add_assoc, add_comm (session.cost action)]

end Session

end TupleWire
