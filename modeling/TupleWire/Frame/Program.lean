import TupleWire.Frame.Composition
import TupleWire.Message
import TupleWire.Registry

/-! Programs of writes on one buffer: elementary writes, and transactions that nest.
Reserved length words are kept under names until they are finished. -/
namespace TupleWire

/-- A buffer in the making, and the length words that are still open in it. -/
structure Draft where
  buf : Buffer
  slots : Registry Slot := []

inductive Reply where
  | done
  | length (size : Nat)
  | committed
  deriving DecidableEq, Repr

/-- How a step ends. What is `stale` is no failure of a write: the program stops there. A length
word is finished that is not open, or of which the buffer no longer holds all four bytes, or more
zeros are to be made than memory can be asked for. A word that begins beyond the end of the buffer
stops only a program that checks for overflow (see `Draft.finish`). -/
inductive Outcome where
  | ok (reply : Reply)
  | failed (e : Error)
  | stale
  deriving DecidableEq, Repr

namespace Outcome

theorem ok_ne_stale (reply : Reply) : Outcome.ok reply ≠ .stale := by
  rintro ⟨⟩

theorem failed_ne_stale (e : Error) : Outcome.failed e ≠ .stale := by
  rintro ⟨⟩

theorem failed_ne_ok (e : Error) (reply : Reply) : Outcome.failed e ≠ .ok reply := by
  rintro ⟨⟩

theorem stale_ne_ok (reply : Reply) : Outcome.stale ≠ .ok reply := by
  rintro ⟨⟩

end Outcome

inductive Op where
  | put (data : Bytes)
  | putWord (w : Word)
  | clear
  | raiseTo (limit : Nat)
  | reserve (slot : String)
  | finish (slot : String) (form : LengthForm)
  | putScalar (data : Bytes)
  | putObject (object : Object)
  | align (n : Nat)
  | putRow (row : Row) (columns : Except Error (List Column))
  | wrap
  | overwrite (pos : Nat) (data : Bytes)

/-- Steps of a program. A transaction ends with the failure `fail`, if one is given. The
failure of an attempted step does not end the transaction around it. -/
inductive Step where
  | write (op : Op)
  | attempt (step : Step)
  | transaction (body : List Step) (fail : Option Error)

namespace Draft

def edit (draft : Draft) (f : Buffer → Buffer) : Outcome × Draft :=
  (.ok .done, { draft with buf := f draft.buf })

def write {α : Type} (draft : Draft) (write : Write α) (reply : α → Reply) : Outcome × Draft :=
  let (result, buf) := write.on draft.buf
  match result with
  | .ok a => (.ok (reply a), { draft with buf })
  | .error e => (.failed e, { draft with buf })

def reserve (draft : Draft) (name : String) : Outcome × Draft :=
  match Write.reserve.on draft.buf with
  | (.ok slot, buf) => (.ok .done, { buf, slots := draft.slots.set name slot })
  | (.error e, buf) => (.failed e, { draft with buf })

/-- A slot is used up by its finish, also where that finds it stale. A slot that begins beyond the
end of the buffer stops the program where overflow is checked for, as it is here; in a release build
its length wraps around, and the finish is refused for want of capacity. -/
def finish (draft : Draft) (name : String) (form : LengthForm) : Outcome × Draft :=
  let closed := { draft with slots := draft.slots.erase name }
  match draft.slots.get? name with
  | none => (.stale, closed)
  | some slot =>
      if slot.Live draft.buf then closed.write (.finish slot form) .length
      else (.stale, closed)

/-- The zeros are made before there is asked for room, and too many of them stop the program. -/
def align (draft : Draft) (n : Nat) : Outcome × Draft :=
  if padding draft.buf.size n ≤ Limit.allocation then draft.write (.align n) .length
  else (.stale, draft)

def wrap (draft : Draft) : Outcome × Draft :=
  match Message.wrap draft.buf.bytes with
  | .error e => (.failed e, draft)
  | .ok bytes => draft.edit fun buf => { buf with bytes }

def putRow (draft : Draft) (row : Row) : Except Error (List Column) → Outcome × Draft
  | .error e => (.failed e, draft)
  | .ok columns => draft.write (.putRow row columns) .length

theorem align_of_le {draft : Draft} {n : Nat} (made : padding draft.buf.size n ≤ Limit.allocation) :
    draft.align n = draft.write (.align n) .length :=
  if_pos made

theorem align_of_lt {draft : Draft} {n : Nat} (many : Limit.allocation < padding draft.buf.size n) :
    draft.align n = (.stale, draft) :=
  if_neg (Nat.not_le_of_lt many)

end Draft

def Op.run : Op → Draft → Outcome × Draft
  | .put data, draft => draft.write (.put data) fun _ => .done
  | .putWord w, draft => draft.write (.putWord w) fun _ => .done
  | .clear, draft => draft.edit .clear
  | .raiseTo limit, draft => draft.edit (·.raiseTo limit)
  | .reserve slot, draft => draft.reserve slot
  | .finish slot form, draft => draft.finish slot form
  | .putScalar data, draft => draft.write (.putScalar data) .length
  | .putObject object, draft => draft.write (.putObject object) .length
  | .align n, draft => draft.align n
  | .putRow row columns, draft => draft.putRow row columns
  | .wrap, draft => draft.wrap
  | .overwrite pos data, draft => draft.edit (·.overwrite pos data)

/-- A step that has ended: how deep inside transactions it stood, how it ended, and the
length of the buffer then. -/
structure Entry where
  depth : Nat
  step : Step
  outcome : Outcome
  size : Nat

/-- The end of a step or of a transaction's body, and the inner steps in the order in
which they ended. -/
structure Run where
  outcome : Outcome
  draft : Draft
  trace : List Entry := []

namespace Run

/-- Ends a transaction that began with `size` bytes. -/
def close (body : Run) (size : Nat) (fail : Option Error) : Run :=
  let back := { body.draft with buf := body.draft.buf.cutTo size }
  match body.outcome, fail with
  | .stale, _ => body
  | .failed e, _ => { body with outcome := .failed e, draft := back }
  | .ok _, some e => { body with outcome := .failed e, draft := back }
  | .ok _, none => { body with outcome := .ok .committed }

end Run

namespace Step

def isAttempt : Step → Bool
  | .attempt _ => true
  | _ => false

/-- Whether the body of a transaction goes on after this step. -/
def continues (step : Step) : Outcome → Bool
  | .ok _ => true
  | .failed _ => step.isAttempt
  | .stale => false

mutual

/-- Runs a step that stands inside `depth` transactions. -/
def run (depth : Nat) : Step → Draft → Run
  | .write op, draft =>
      let (outcome, draft) := op.run draft
      { outcome, draft }
  | .attempt step, draft => run depth step draft
  | .transaction body fail, draft => (runBody (depth + 1) body draft).close draft.buf.size fail

/-- Runs the steps of a transaction up to the first failure that is not attempted. -/
def runBody (depth : Nat) : List Step → Draft → Run
  | [], draft => { outcome := .ok .done, draft }
  | step :: rest, draft =>
      let first := run depth step draft
      let entry : Entry :=
        { depth, step, outcome := first.outcome, size := first.draft.buf.size }
      if first.outcome = .stale then first
      else if step.continues first.outcome then
        let later := runBody depth rest first.draft
        { later with trace := first.trace ++ entry :: later.trace }
      else { first with trace := first.trace ++ [entry] }

end

end Step

/-- Runs a program outside of any transaction: every step, whatever came of those before. -/
def Draft.run (draft : Draft) : List Step → List Outcome × Draft
  | [] => ([], draft)
  | step :: rest =>
      let first := step.run 0 draft
      let (outcomes, last) := first.draft.run rest
      (first.outcome :: outcomes, last)

end TupleWire
