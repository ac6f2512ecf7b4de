import Mathlib.Algebra.BigOperators.Group.List.Basic
import Mathlib.Algebra.GroupWithZero.Nat
import TupleWire.Proofs.Scan.Keeping
import TupleWire.Proofs.Scan.Watching
import TupleWire.Proofs.Store.Sharing

/-! The life of a cursor: the calls that it has received since it was opened, and what is counted
for them. A closed cursor counts no more fetches and is not closed again, and a scan leaves no
cursor open that it does not use. -/
namespace TupleWire

namespace Contact

theorem takeWhile_of_released {contacts : List Contact} (released : contacts.any isRelease = true)
    (more : List Contact) :
    (contacts ++ more).takeWhile isFetch = contacts.takeWhile isFetch := by
  induction contacts with
  | nil => cases released
  | cons contact contacts ih =>
      cases contact with
      | released result => rfl
      | fetched result => exact congrArg (Contact.fetched result :: ·) (ih released)

theorem takeWhile_of_unreleased {contacts : List Contact}
    (unreleased : contacts.any isRelease = false) (more : List Contact) :
    (contacts ++ more).takeWhile isFetch = contacts ++ more.takeWhile isFetch := by
  induction contacts with
  | nil => rfl
  | cons contact contacts ih =>
      cases contact with
      | released result => cases unreleased
      | fetched result => exact congrArg (Contact.fetched result :: ·) (ih unreleased)

end Contact

theorem Cursor.fetch_of_open (rows : List Row) (selection : Selection) (counters : Counters) :
    ∃ left, (Cursor.fetch ⟨some rows, selection⟩ counters).source.rows = some left ∧
      (Cursor.fetch ⟨some rows, selection⟩ counters).world =
        { counters with fetches := counters.fetches + 1 } := by
  simp only [fetch]
  cases selection.firstRow? rows with
  | none => exact ⟨[], rfl, rfl⟩
  | some found => exact ⟨found.2, rfl, rfl⟩

/-- A cursor that was opened: for whom, and the calls that it has received since, in order. -/
structure Life where
  party : Party
  contacts : List Contact := []

namespace Life

def add (life : Life) (contacts : List Contact) : Life :=
  { life with contacts := life.contacts ++ contacts }

def closed (life : Life) : Bool := life.contacts.any Contact.isRelease

def fetches (life : Life) : Nat := (life.contacts.takeWhile Contact.isFetch).length

def counters (life : Life) : Counters :=
  { opens := 1, fetches := life.fetches, closes := if life.closed then 1 else 0 }

/-- The cursor is as the calls that it has received have left it. -/
def Of (life : Life) (cursor : Cursor) : Prop := life.closed = cursor.rows.isNone

theorem add_nil (life : Life) : life.add [] = life :=
  congrArg (Life.mk life.party) (List.append_nil life.contacts)

theorem add_add (life : Life) (front back : List Contact) :
    (life.add front).add back = life.add (front ++ back) :=
  congrArg (Life.mk life.party) (List.append_assoc life.contacts front back)

theorem closed_add (life : Life) (contacts : List Contact) :
    (life.add contacts).closed = (life.closed || contacts.any Contact.isRelease) :=
  List.any_append

theorem counters_add_of_closed {life : Life} (closed : life.closed = true)
    (contacts : List Contact) : (life.add contacts).counters = life.counters := by
  have still : (life.add contacts).closed = life.closed := by
    rw [closed_add, closed, Bool.true_or]
  have fetches : (life.add contacts).fetches = life.fetches :=
    congrArg List.length (Contact.takeWhile_of_released closed contacts)
  rw [counters, still, fetches, counters]

theorem fetches_of_open {life : Life} (opened : life.closed = false) :
    life.fetches = life.contacts.length := by
  have all := Contact.takeWhile_of_unreleased opened []
  rw [List.append_nil, List.takeWhile_nil, List.append_nil] at all
  rw [fetches, all]

theorem fetches_add_of_open {life : Life} (opened : life.closed = false)
    (contacts : List Contact) :
    (life.add contacts).fetches = life.fetches + (contacts.takeWhile Contact.isFetch).length := by
  rw [fetches_of_open opened, fetches, add, Contact.takeWhile_of_unreleased opened,
    List.length_append]

theorem counters_add_fetch {life : Life} (opened : life.closed = false)
    (result : Except Error (Option Row)) :
    (life.add [.fetched result]).counters =
      { life.counters with fetches := life.counters.fetches + 1 } := by
  rw [counters, closed_add, fetches_add_of_open opened, counters, opened]
  rfl

theorem counters_add_release {life : Life} (opened : life.closed = false)
    (result : Except Error Unit) :
    (life.add [.released result]).counters =
      { life.counters with closes := life.counters.closes + 1 } := by
  rw [counters, closed_add, fetches_add_of_open opened, counters, opened]
  rfl

section Cursor

variable {life : Life} {cursor : Cursor} {base counters : Counters}

theorem Of.fetch (of : life.Of cursor) (counted : counters = base + life.counters) :
    (life.add [.fetched (cursor.fetch counters).result]).Of (cursor.fetch counters).source ∧
      (cursor.fetch counters).world =
        base + (life.add [.fetched (cursor.fetch counters).result]).counters := by
  have closed := life.closed_add [.fetched (cursor.fetch counters).result]
  obtain ⟨rows, selection⟩ := cursor
  cases rows with
  | none =>
      rw [counters_add_of_closed of]
      exact ⟨closed.trans (congrArg (· || false) of), counted⟩
  | some rows =>
      obtain ⟨left, still, world⟩ := Cursor.fetch_of_open rows selection counters
      rw [counters_add_fetch of, world, Of, still, closed, of, counted]
      exact ⟨rfl, rfl⟩

theorem Of.release (of : life.Of cursor) (counted : counters = base + life.counters) :
    (life.add [.released (cursor.release counters).result]).closed = true ∧
      (life.add [.released (cursor.release counters).result]).Of (cursor.release counters).source ∧
      (cursor.release counters).world =
        base + (life.add [.released (cursor.release counters).result]).counters := by
  have closed : (life.add [.released (cursor.release counters).result]).closed = true := by
    rw [closed_add]
    exact Bool.or_true _
  refine ⟨closed, closed, ?_⟩
  obtain ⟨rows, selection⟩ := cursor
  cases rows with
  | none =>
      rw [counters_add_of_closed of]
      exact counted
  | some rows =>
      rw [counters_add_release of, counted]
      rfl

end Cursor

/-- The cursor of a scan is open, and once the scan has left it, it has been closed. -/
def InUse (life : Life) : Option Cursor → Prop
  | some cursor => life.closed = false ∧ life.Of cursor
  | none => life.closed = true

/-- What a scan keeps of its cursor and of the counters, where `base` is counted for others. -/
def keeping (life : Life) (base : Counters) :
    Keeping (Watched Cursor) (Counters × List Contact) where
  held watched world :=
    (life.add world.2).InUse (some watched.source) ∧
      world.1 = base + (life.add world.2).counters
  gone world :=
    (life.add world.2).InUse none ∧ world.1 = base + (life.add world.2).counters
  fetch := by
    rintro watched world ⟨⟨opened, of⟩, counted⟩
    have fetched := of.fetch counted
    have still := (life.add world.2).closed_add [.fetched (Source.fetch watched world).result]
    rw [opened, add_add] at still
    rw [add_add] at fetched
    exact ⟨⟨still, fetched.1⟩, fetched.2⟩
  release := by
    rintro watched world ⟨⟨opened, of⟩, counted⟩
    have released := of.release counted
    rw [add_add] at released
    exact ⟨released.1, released.2.2⟩

theorem at_iff {life : Life} {base : Counters} {source? : Option (Watched Cursor)}
    {world : Counters × List Contact} :
    (life.keeping base).At source? world ↔
      (life.add world.2).InUse (source?.map Watched.source) ∧
        world.1 = base + (life.add world.2).counters := by
  cases source? with
  | _ => exact Iff.rfl

end Life

theorem Watched.source?_mirror {σ ω : Type} [Source σ ω]
    (handle : Handle (Watched σ) (ω × List Contact)) :
    (Watched.mirror.handle handle).source? = handle.source?.map Watched.source := by
  obtain ⟨scan, world⟩ := handle
  cases scan with
  | _ => rfl

/-- A call, with the contacts of the cursor during it noted in its life. -/
theorem Life.call {life : Life} {base : Counters} {handle : Handle Cursor Counters}
    (use : life.InUse handle.source?) (counted : handle.world = base + life.counters)
    (call : Call) :
    (life.add (handle.contacts [call])).InUse (handle.call call).2.source? ∧
      (handle.call call).2.world = base + (life.add (handle.contacts [call])).counters := by
  have watched := congrArg Prod.snd (Watched.mirror.call handle.watched call)
  rw [Handle.mirror_watched] at watched
  have source : handle.source? = handle.watched.source?.map Watched.source := by
    rw [← Watched.source?_mirror, Handle.mirror_watched]
  have kept : (life.keeping base).At handle.watched.source? handle.watched.world := by
    rw [Life.at_iff, ← source]
    exact ⟨life.add_nil.symm ▸ use, counted.trans (congrArg (base + ·.counters) life.add_nil.symm)⟩
  have after := Life.at_iff.mp (Keeping.call kept call)
  rw [watched, Watched.source?_mirror]
  exact after

theorem Handle.contacts_of_gone {handle : Handle Cursor Counters} (gone : handle.source? = none)
    (call : Call) : handle.contacts [call] = [] := by
  have watched : handle.watched.source? = none := by
    rw [← Option.map_eq_none_iff (f := Watched.source), ← Watched.source?_mirror,
      Handle.mirror_watched, gone]
  exact congrArg Prod.snd (Handle.call_of_gone watched call).2

theorem Handle.source?_drop {σ ω : Type} [Source σ ω] (handle : Handle σ ω) :
    (handle.call .drop).2.source? = none := by
  obtain ⟨scan, world⟩ := handle
  cases scan with
  | _ => rfl

def Counters.opened (counters : Counters) : Counters :=
  { counters with opens := counters.opens + 1 }

theorem Counters.opened_eq (counters : Counters) : counters.opened = { opens := 1 } + counters :=
  ext (Nat.add_comm _ _) (Nat.zero_add _).symm (Nat.zero_add _).symm

namespace Life

def total (lives : List Life) : Counters := (lives.map Life.counters).sum

theorem add_total_cons (base : Counters) (life : Life) (past : List Life) :
    base + total (life :: past) = base + total past + life.counters := by
  rw [add_assoc, add_comm (total past)]
  rfl

theorem add_total_opened (base : Counters) (party : Party) (own : List Life) :
    base + total ({ party } :: own) = { opens := 1 } + base + total own := by
  rw [add_total_cons, add_comm _ base, add_right_comm]
  rfl

end Life

/-- The cursor that a party uses, and those that it has opened, the latest first. No cursor of a
scan is open but the one that the scan uses. -/
inductive Records : Party → Option Cursor → List Life → Prop
  | used {id : String} {cursor : Cursor} {life : Life} {past : List Life}
      (use : life.InUse (some cursor)) (shut : ∀ life ∈ past, life.closed = true) :
      Records (.scan id) (some cursor) (life :: past)
  | left {id : String} {lives : List Life} (shut : ∀ life ∈ lives, life.closed = true) :
      Records (.scan id) none lives
  | bare {id : String} {cursor : Cursor} {life : Life} {past : List Life} (of : life.Of cursor) :
      Records (.cursor id) (some cursor) (life :: past)
  | dropped (id : String) (lives : List Life) : Records (.cursor id) none lives

namespace Records

variable {id : String} {cursor? : Option Cursor} {own : List Life}

theorem of_use {life : Life} {past : List Life} (use : life.InUse cursor?)
    (shut : ∀ life ∈ past, life.closed = true) : Records (.scan id) cursor? (life :: past) := by
  cases cursor? with
  | some cursor => exact .used use shut
  | none => exact .left (List.forall_mem_cons.mpr ⟨use, shut⟩)

theorem shut_of_gone (records : Records (.scan id) none own) :
    ∀ life ∈ own, life.closed = true := by
  cases records with
  | left shut => exact shut

theorem modifyHead_nil (own : List Life) : own.modifyHead (·.add []) = own := by
  cases own with
  | nil => rfl
  | cons life past => exact congrArg (· :: past) life.add_nil

theorem countP_open (records : Records (.scan id) cursor? own) :
    own.countP (fun life => !life.closed) = if cursor?.isSome then 1 else 0 := by
  have none_open : ∀ {past : List Life}, (∀ life ∈ past, life.closed = true) →
      past.countP (fun life => !life.closed) = 0 := by
    intro past shut
    rw [List.countP_eq_zero]
    intro life member
    rw [shut life member]
    exact Bool.noConfusion
  cases records with
  | used use shut =>
      rw [List.countP_cons, none_open shut, use.1]
      rfl
  | left shut => exact none_open shut

theorem call {handle : Handle Cursor Counters} {base : Counters}
    (records : Records (.scan id) handle.source? own)
    (counted : handle.world = base + Life.total own) (call : Call) :
    Records (.scan id) (handle.call call).2.source?
        (own.modifyHead (·.add (handle.contacts [call]))) ∧
      (handle.call call).2.world =
        base + Life.total (own.modifyHead (·.add (handle.contacts [call]))) := by
  cases present : handle.source? with
  | none =>
      obtain ⟨gone, world⟩ := Handle.call_of_gone present call
      rw [Handle.contacts_of_gone present, modifyHead_nil, gone, world, ← present]
      exact ⟨records, counted⟩
  | some cursor =>
      rw [present] at records
      cases records with
      | @used _ _ life past use shut =>
          have counted := counted.trans (Life.add_total_cons base life past)
          obtain ⟨use, world⟩ := Life.call (present ▸ use) counted call
          exact ⟨of_use use shut, world.trans (Life.add_total_cons _ _ _).symm⟩

end Records

end TupleWire
