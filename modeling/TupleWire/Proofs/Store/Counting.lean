import TupleWire.Proofs.Store.Living

/-! What a store counts, told by the cursors that were opened, one entry for each. Every action
adds its calls to the life of the latest cursor of its party, and counts for that cursor, so the
counters are the sum over all lives, in whatever order the parties act. -/
namespace TupleWire

namespace Session

def cursor? (session : Session) : Party → Option Cursor
  | .scan id => (session.scans.get? id).bind Scan.source
  | .cursor id => session.cursors.get? id

/-- What the cursor of a party is called for by an action. -/
def contacts (session : Session) : Action → List Contact
  | .startScan id table heading room =>
      match session.store.startScan table heading room session.counters with
      | (.error _, _) => []
      | (.ok _, counters) => Handle.contacts ⟨session.scans.get? id, counters⟩ [.drop]
  | .call id call => Handle.contacts ⟨session.scans.get? id, session.counters⟩ [call]
  | .openCursor _ _ _ => []
  | .fetch id =>
      match session.cursors.get? id with
      | none => []
      | some cursor => [.fetched (cursor.fetch session.counters).result]
  | .closeCursor id =>
      match session.cursors.get? id with
      | none => []
      | some cursor => [.released (cursor.release session.counters).result]
  | .dropCursor _ => []

end Session

def Effect.opens : Effect → Bool
  | .opened (.ok _) => true
  | _ => false

/-- The contacts are those of the cursor that the party opened last. -/
def Life.note (party : Party) (contacts : List Contact) : List Life → List Life
  | [] => []
  | life :: lives =>
      if life.party = party then life.add contacts :: lives
      else life :: note party contacts lives

namespace Session

/-- The cursors that were opened, the latest first, after one more action. -/
def livesAfter (session : Session) (action : Action) (lives : List Life) : List Life :=
  let noted := Life.note action.party (session.contacts action) lives
  if (session.perform action).1.opens then { party := action.party } :: noted else noted

def lives (session : Session) : List Action → List Life → List Life
  | [], lives => lives
  | action :: actions, lives =>
      (session.perform action).2.lives actions (session.livesAfter action lives)

/-- An action in the lives of the cursors of its party. -/
def ownAfter (session : Session) (action : Action) (own : List Life) : List Life :=
  let noted := own.modifyHead (·.add (session.contacts action))
  if (session.perform action).1.opens then { party := action.party } :: noted else noted

variable {session : Session} {action : Action} {own : List Life} {base : Counters}

theorem ownAfter_of_opens (opens : (session.perform action).1.opens = true) (own : List Life) :
    session.ownAfter action own =
      { party := action.party } :: own.modifyHead (·.add (session.contacts action)) := by
  rw [ownAfter, if_pos opens]

theorem ownAfter_of_not_opens (opens : (session.perform action).1.opens = false)
    (own : List Life) :
    session.ownAfter action own = own.modifyHead (·.add (session.contacts action)) := by
  rw [ownAfter, opens]
  rfl

/-- What an action owes to its own party: the lives of the cursors are as those are left, and all
that is counted more is counted for them. -/
def Recorded (session : Session) (action : Action) (own : List Life) (base : Counters) : Prop :=
  Records action.party ((session.perform action).2.cursor? action.party)
      (session.ownAfter action own) ∧
    (session.perform action).2.counters = base + Life.total (session.ownAfter action own)

section Own

variable {id : String}

theorem recorded_idle (records : Records action.party (session.cursor? action.party) own)
    (counted : session.counters = base + Life.total own) {effect : Effect}
    (performed : session.perform action = (effect, session)) (opens : effect.opens = false)
    (contacts : session.contacts action = []) : session.Recorded action own base := by
  have opens : (session.perform action).1.opens = false := by rw [performed, opens]
  rw [Recorded, ownAfter_of_not_opens opens, contacts, Records.modifyHead_nil, performed]
  exact ⟨records, counted⟩

theorem recorded_startScan (records : Records (.scan id) (session.cursor? (.scan id)) own)
    (counted : session.counters = base + Life.total own) (table : Bytes) (heading : Heading)
    (room : Nat) : session.Recorded (.startScan id table heading room) own base := by
  cases found : session.store.table? table with
  | none =>
      have started : session.store.startScan table heading room session.counters =
          (.error { fault := .tableNotFound table }, session.counters) := by
        rw [Store.startScan, Store.openCursor, found]
        rfl
      have performed : session.perform (.startScan id table heading room) =
          (.opened (.error { fault := .tableNotFound table }), session) := by
        rw [perform, startScan, started]
      have contacts : session.contacts (.startScan id table heading room) = [] := by
        rw [Session.contacts, started]
      exact recorded_idle records counted performed rfl contacts
  | some rows =>
      let earlier : Handle Cursor Counters := ⟨session.scans.get? id, session.counters.opened⟩
      have started : session.store.startScan table heading room session.counters =
          (.ok (.start { rows := some rows.rows, selection := .ofHeading heading } heading room),
            session.counters.opened) := by
        rw [Store.startScan, Store.openCursor, found]
        rfl
      have performed : session.perform (.startScan id table heading room) =
          (.opened (.ok ()),
            { session with
              counters := (earlier.call .drop).2.world
              scans := session.scans.set id
                (.start { rows := some rows.rows, selection := .ofHeading heading }
                  heading room) }) := by
        rw [perform, startScan, started]
      have contacts : session.contacts (.startScan id table heading room) =
          earlier.contacts [.drop] := by
        rw [Session.contacts, started]
      have opens : (session.perform (.startScan id table heading room)).1.opens = true := by
        rw [performed]
        rfl
      have opened : earlier.world = { opens := 1 } + base + Life.total own := by
        rw [add_assoc, ← counted]
        exact session.counters.opened_eq
      obtain ⟨left, world⟩ := Records.call records opened .drop
      rw [Handle.source?_drop] at left
      rw [Recorded, ownAfter_of_opens opens, contacts, performed]
      refine ⟨?_, ?_⟩
      · simp only [Action.party, cursor?]
        rw [Registry.get?_set, if_pos rfl]
        exact .used ⟨rfl, rfl⟩ left.shut_of_gone
      · exact world.trans (Life.add_total_opened _ _ _).symm

theorem recorded_call (records : Records (.scan id) (session.cursor? (.scan id)) own)
    (counted : session.counters = base + Life.total own) (call : Call) :
    session.Recorded (.call id call) own base := by
  let handle : Handle Cursor Counters := ⟨session.scans.get? id, session.counters⟩
  have records : Records (.scan id) handle.source? own := records
  obtain ⟨use, world⟩ := records.call counted call
  have opens : (session.perform (.call id call)).1.opens = false := rfl
  have cursor : (session.perform (.call id call)).2.cursor? (.scan id) =
      (handle.call call).2.source? := by
    simp only [perform, Session.call, cursor?, Handle.source?, handle]
    cases (Handle.call ⟨session.scans.get? id, session.counters⟩ call).2.scan with
    | none => rw [Registry.get?_erase, if_pos rfl]
    | some scan => rw [Registry.get?_set, if_pos rfl]
  rw [Recorded, ownAfter_of_not_opens opens, Action.party, cursor]
  exact ⟨use, world⟩

theorem recorded_openCursor (records : Records (.cursor id) (session.cursor? (.cursor id)) own)
    (counted : session.counters = base + Life.total own) (table : Bytes) (selection : Selection) :
    session.Recorded (.openCursor id table selection) own base := by
  cases found : session.store.table? table with
  | none =>
      have performed : session.perform (.openCursor id table selection) =
          (.opened (.error { fault := .tableNotFound table }), session) := by
        rw [perform, openCursor, Store.openCursor, found]
      exact recorded_idle records counted performed rfl rfl
  | some rows =>
      have performed : session.perform (.openCursor id table selection) =
          (.opened (.ok ()),
            { session with
              counters := session.counters.opened
              cursors := session.cursors.set id { rows := some rows.rows, selection } }) := by
        rw [perform, openCursor, Store.openCursor, found]
        rfl
      have opens : (session.perform (.openCursor id table selection)).1.opens = true := by
        rw [performed]
        rfl
      have contacts : session.contacts (.openCursor id table selection) = [] := rfl
      rw [Recorded, ownAfter_of_opens opens, contacts, Records.modifyHead_nil, performed]
      refine ⟨?_, ?_⟩
      · simp only [Action.party, cursor?]
        rw [Registry.get?_set, if_pos rfl]
        exact .bare rfl
      · simp only
        rw [Counters.opened_eq, counted, Life.add_total_opened, add_assoc]

theorem recorded_contact {cursor source : Cursor} {world : Counters} {contact : Contact}
    (bare : action.party = .cursor id) (found : session.cursors.get? id = some cursor)
    (records : Records action.party (session.cursor? action.party) own)
    (counted : session.counters = base + Life.total own)
    (performed : (session.perform action).2 =
      { session with counters := world, cursors := session.cursors.set id source })
    (opens : (session.perform action).1.opens = false)
    (contacts : session.contacts action = [contact])
    (told : ∀ (life : Life) (base : Counters), life.Of cursor →
      session.counters = base + life.counters →
        (life.add [contact]).Of source ∧ world = base + (life.add [contact]).counters) :
    session.Recorded action own base := by
  rw [bare, cursor?, found] at records
  cases records with
  | @bare _ _ life past of =>
      obtain ⟨of, world⟩ := told life _ of (counted.trans (Life.add_total_cons base life past))
      rw [Recorded, ownAfter_of_not_opens opens, contacts, performed, bare]
      refine ⟨?_, world.trans (Life.add_total_cons _ _ _).symm⟩
      rw [cursor?, Registry.get?_set, if_pos rfl]
      exact .bare of

theorem recorded_fetch (records : Records (.cursor id) (session.cursor? (.cursor id)) own)
    (counted : session.counters = base + Life.total own) :
    session.Recorded (.fetch id) own base := by
  cases found : session.cursors.get? id with
  | none =>
      have performed : session.perform (.fetch id) = (.noCursor, session) := by
        rw [perform, fetch, found]
      have contacts : session.contacts (.fetch id) = [] := by rw [Session.contacts, found]
      exact recorded_idle records counted performed rfl contacts
  | some cursor =>
      refine recorded_contact rfl found records counted ?_ ?_ ?_
        fun life base of counted => of.fetch counted
      · rw [perform, fetch, found]
      · rw [perform, fetch, found]
        rfl
      · rw [Session.contacts, found]

theorem recorded_closeCursor (records : Records (.cursor id) (session.cursor? (.cursor id)) own)
    (counted : session.counters = base + Life.total own) :
    session.Recorded (.closeCursor id) own base := by
  cases found : session.cursors.get? id with
  | none =>
      have performed : session.perform (.closeCursor id) = (.noCursor, session) := by
        rw [perform, closeCursor, found]
      have contacts : session.contacts (.closeCursor id) = [] := by rw [Session.contacts, found]
      exact recorded_idle records counted performed rfl contacts
  | some cursor =>
      refine recorded_contact rfl found records counted ?_ ?_ ?_
        fun life base of counted => (of.release counted).2
      · rw [perform, closeCursor, found]
      · rw [perform, closeCursor, found]
        rfl
      · rw [Session.contacts, found]

theorem recorded_dropCursor (counted : session.counters = base + Life.total own) :
    session.Recorded (.dropCursor id) own base := by
  have cursor : (session.perform (.dropCursor id)).2.cursor? (.cursor id) = none := by
    simp only [perform, cursor?]
    rw [Registry.get?_erase, if_pos rfl]
  have opens : (session.perform (.dropCursor id)).1.opens = false := rfl
  have contacts : session.contacts (.dropCursor id) = [] := rfl
  rw [Recorded, ownAfter_of_not_opens opens, contacts, Records.modifyHead_nil, Action.party, cursor]
  exact ⟨.dropped id own, counted⟩

end Own

theorem recorded (records : Records action.party (session.cursor? action.party) own)
    (counted : session.counters = base + Life.total own) : session.Recorded action own base := by
  cases action with
  | startScan id table heading room => exact recorded_startScan records counted table heading room
  | call id call => exact recorded_call records counted call
  | openCursor id table selection => exact recorded_openCursor records counted table selection
  | fetch id => exact recorded_fetch records counted
  | closeCursor id => exact recorded_closeCursor records counted
  | dropCursor id => exact recorded_dropCursor counted

end Session

def Party.owns (party : Party) (life : Life) : Bool := life.party = party

namespace Life

variable (party : Party) (contacts : List Contact) (lives : List Life)

theorem length_note : (note party contacts lives).length = lives.length := by
  induction lives with
  | nil => rfl
  | cons life lives ih =>
      rw [note]
      split
      · rfl
      · exact congrArg (· + 1) ih

theorem filter_note_self : (note party contacts lives).filter party.owns =
    (lives.filter party.owns).modifyHead (·.add contacts) := by
  induction lives with
  | nil => rfl
  | cons life lives ih =>
      rw [note]
      by_cases own : life.party = party
      · have owns : party.owns life = true := decide_eq_true own
        have still : party.owns (life.add contacts) = true := owns
        rw [if_pos own, List.filter_cons_of_pos still, List.filter_cons_of_pos owns]
        rfl
      · have other : ¬ party.owns life = true := fun owns => own (of_decide_eq_true owns)
        rw [if_neg own, List.filter_cons_of_neg other, List.filter_cons_of_neg other, ih]

variable {party} in
theorem filter_note {keep : Life → Bool}
    (apart : ∀ life, life.party = party → keep life = false) :
    (note party contacts lives).filter keep = lives.filter keep := by
  have dropped : ∀ life : Life, life.party = party → ¬ keep life = true :=
    fun life own kept => Bool.noConfusion ((apart life own).symm.trans kept)
  induction lives with
  | nil => rfl
  | cons life lives ih =>
      rw [note]
      by_cases own : life.party = party
      · rw [if_pos own, List.filter_cons_of_neg (dropped (life.add contacts) own),
          List.filter_cons_of_neg (dropped life own)]
      · rw [if_neg own, List.filter_cons, List.filter_cons, ih]

theorem total_filter (keep : Life → Bool) :
    total lives = total (lives.filter (!keep ·)) + total (lives.filter keep) := by
  induction lives with
  | nil => rfl
  | cons life lives ih =>
      have whole : total (life :: lives) = life.counters + total lives := rfl
      rw [whole, ih, List.filter_cons, List.filter_cons]
      cases keep life with
      | true => exact add_left_comm _ _ _
      | false => exact (add_assoc _ _ _).symm

theorem opens_total : (total lives).opens = lives.length := by
  induction lives with
  | nil => rfl
  | cons life lives ih => exact (congrArg (1 + ·) ih).trans (Nat.add_comm 1 _)

theorem fetches_total : (total lives).fetches = (lives.map fetches).sum := by
  induction lives with
  | nil => rfl
  | cons life lives ih => exact congrArg (life.fetches + ·) ih

theorem closes_total : (total lives).closes = lives.countP closed := by
  induction lives with
  | nil => rfl
  | cons life lives ih =>
      rw [List.countP_cons, ← ih, Nat.add_comm]
      rfl

end Life

namespace Session

/-- All lives of cursors are as those are now, and account for what is counted. -/
structure Accounted (session : Session) (lives : List Life) : Prop where
  records : ∀ party, Records party (session.cursor? party) (lives.filter party.owns)
  counted : session.counters = Life.total lives

variable {session : Session} {lives : List Life} {action : Action}

theorem filter_livesAfter_self (session : Session) (action : Action) (lives : List Life) :
    (session.livesAfter action lives).filter action.party.owns =
      session.ownAfter action (lives.filter action.party.owns) := by
  have owns : action.party.owns { party := action.party } = true := decide_eq_true rfl
  rw [livesAfter, ownAfter, ← Life.filter_note_self]
  cases (session.perform action).1.opens with
  | true => exact List.filter_cons_of_pos owns
  | false => rfl

theorem filter_livesAfter (session : Session) (lives : List Life) {keep : Life → Bool}
    (apart : ∀ life : Life, life.party = action.party → keep life = false) :
    (session.livesAfter action lives).filter keep = lives.filter keep := by
  have dropped : ¬ keep { party := action.party } = true :=
    fun kept => Bool.noConfusion ((apart _ rfl).symm.trans kept)
  rw [livesAfter, ← Life.filter_note (session.contacts action) lives apart]
  cases (session.perform action).1.opens with
  | true => exact List.filter_cons_of_neg dropped
  | false => rfl

theorem cursor?_perform_of_ne (session : Session) {party : Party} (other : party ≠ action.party) :
    (session.perform action).2.cursor? party = session.cursor? party := by
  have alone (session : Session) : (session.alone party).cursor? party = session.cursor? party := by
    cases party with
    | scan id => rw [Session.alone, cursor?, Registry.get?_only, cursor?]
    | cursor id => rw [Session.alone, cursor?, Registry.get?_only, cursor?]
  rw [← alone, session.alone_perform_of_ne other, alone]

theorem accounted_perform (accounted : session.Accounted lives) (action : Action) :
    (session.perform action).2.Accounted (session.livesAfter action lives) := by
  have counted := accounted.counted.trans (Life.total_filter lives action.party.owns)
  obtain ⟨records, world⟩ := recorded (accounted.records action.party) counted
  rw [← filter_livesAfter_self] at records world
  refine ⟨fun party => ?_, ?_⟩
  · by_cases own : party = action.party
    · subst own
      exact records
    · have apart : ∀ life : Life, life.party = action.party → party.owns life = false :=
        fun life other => decide_eq_false fun same => own (same.symm.trans other)
      rw [session.cursor?_perform_of_ne own, session.filter_livesAfter lives apart]
      exact accounted.records party
  · have apart : ∀ life : Life, life.party = action.party → (!action.party.owns life) = false :=
      fun life own => congrArg not (decide_eq_true own)
    rw [world, Life.total_filter (session.livesAfter action lives) action.party.owns,
      session.filter_livesAfter lives apart]

theorem accounted_run (accounted : session.Accounted lives) (actions : List Action) :
    (session.run actions).2.Accounted (session.lives actions lives) := by
  induction actions generalizing session lives with
  | nil => exact accounted
  | cons action actions ih => exact ih (accounted_perform accounted action)

theorem length_livesAfter (session : Session) (action : Action) (lives : List Life) :
    (session.livesAfter action lives).length =
      (if (session.perform action).1.opens then 1 else 0) + lives.length := by
  rw [livesAfter, ← Life.length_note action.party (session.contacts action) lives]
  cases (session.perform action).1.opens with
  | true => exact Nat.add_comm _ 1
  | false => exact (Nat.zero_add _).symm

theorem length_lives (session : Session) (actions : List Action) (lives : List Life) :
    (session.lives actions lives).length =
      (session.run actions).1.countP Effect.opens + lives.length := by
  induction actions generalizing session lives with
  | nil => exact (Nat.zero_add _).symm
  | cons action actions ih =>
      rw [Session.lives, ih, run, List.countP_cons, Nat.add_assoc, length_livesAfter]

theorem accounted_begin (store : Store) (actions : List Action) :
    (({ store } : Session).run actions).2.Accounted (({ store } : Session).lives actions []) := by
  refine accounted_run ⟨fun party => ?_, rfl⟩ actions
  cases party with
  | scan id => exact .left nofun
  | cursor id => exact .dropped id []

end Session

/-- What holds of a session that began on a store, after these actions of its scans and cursors.
The effects of the actions of each party are those that it sees alone. The counters tell the
cursors that were opened, the fetches that each of them received before it was closed, and how
many have been closed; of those of a scan, all but the one in use have been. A bare cursor that
is dropped counts nothing. All parties together count what they count alone, so it makes no
difference how their actions are interleaved. -/
structure Session.Shared (store : Store) (actions : List Action) (effects : List Effect)
    (session : Session) (lives : List Life) : Prop where
  results : ∀ party : Party, party.effects actions effects =
    (({ store } : Session).run (actions.filter party.acts)).1
  opens : session.counters.opens = effects.countP Effect.opens
  cursors : lives.length = session.counters.opens
  fetches : session.counters.fetches = (lives.map Life.fetches).sum
  closes : session.counters.closes = lives.countP Life.closed
  scans : ∀ id, lives.countP (fun life => !life.closed && (Party.scan id).owns life) =
    if (session.cursor? (.scan id)).isSome then 1 else 0
  bare : ∀ id, (session.perform (.dropCursor id)).2.counters = session.counters
  sum : session.counters = ∑ party ∈ (actions.map Action.party).toFinset,
    (({ store } : Session).run (actions.filter party.acts)).2.counters
  order : ∀ others : List Action,
    (∀ party : Party, others.filter party.acts = actions.filter party.acts) →
      (({ store } : Session).run others).2.counters = session.counters

namespace Session

theorem alone_begin (store : Store) (party : Party) :
    ({ store } : Session).alone party = { store } := by
  cases party with
  | _ => rfl

theorem counters_begin (store : Store) {parties : Finset Party} {actions : List Action}
    (all : ∀ action ∈ actions, action.party ∈ parties) :
    (({ store } : Session).run actions).2.counters =
      ∑ party ∈ parties, (({ store } : Session).run (actions.filter party.acts)).2.counters := by
  rw [counters_run _ all]
  simp only [solo, alone_begin]
  exact zero_add _

/-- Whatever scans and cursors do on one store, they do not interfere, and the counters add up. -/
theorem sessions_do_not_interfere (store : Store) (actions : List Action) :
    Session.Shared store actions (({ store } : Session).run actions).1
      (({ store } : Session).run actions).2 (({ store } : Session).lives actions []) := by
  have accounted := accounted_begin store actions
  have counted := accounted.counted
  refine {
    results := fun party => ?_
    opens := ?_
    cursors := ?_
    fetches := ?_
    closes := ?_
    scans := fun id => ?_
    bare := fun id => rfl
    sum := ?_
    order := fun others same => ?_ }
  · rw [effects_run, solo, alone_begin]
  · rw [counted, Life.opens_total, length_lives]
    rfl
  · rw [counted, Life.opens_total]
  · rw [counted, Life.fetches_total]
  · rw [counted, Life.closes_total]
  · rw [← List.countP_filter]
    exact (accounted.records (.scan id)).countP_open
  · refine counters_begin store fun action member => ?_
    exact List.mem_toFinset.mpr (List.mem_map_of_mem member)
  · have all : ∀ action ∈ actions ++ others,
        action.party ∈ ((actions ++ others).map Action.party).toFinset :=
      fun action member => List.mem_toFinset.mpr (List.mem_map_of_mem member)
    rw [counters_begin store fun action member => all action (List.mem_append_right _ member),
      counters_begin store fun action member => all action (List.mem_append_left _ member)]
    exact Finset.sum_congr rfl fun party _ => by rw [same]

/-- Two scans and a bare cursor on an empty table. The cursor is dropped and was not closed. -/
example :
    (({ store := ⟨[([116], [])]⟩ } : Session).run
      [.startScan "a" [116] .empty 80, .openCursor "b" [116] {}, .startScan "c" [116] .empty 80,
        .fetch "b", .call "c" .next, .call "a" .drop, .dropCursor "b", .call "c" .next,
        .call "c" .close]).2.counters = { opens := 3, fetches := 2, closes := 2 } := by
  decide +kernel

end Session

end TupleWire
