import TupleWire.Proofs.Frame.Transacting

/-! The bound of a buffer. No write makes the contents longer than the limit, none lowers the
limit, and a cut does neither, so both hold wherever writes and cuts lead, the drafts inside
transactions and those that a stop leaves behind included. A reserved word is lost only to a
clear or a cut. -/
namespace TupleWire

namespace Buffer

variable {buf : Buffer}

theorem size_append_le {part : Bytes} (within : buf.size ≤ buf.limit)
    (fits : part.length ≤ buf.remaining) : (buf.append part).size ≤ buf.limit := by
  rw [size_append]
  rw [remaining] at fits
  omega

theorem size_cutTo_le (buf : Buffer) (size : Nat) : (buf.cutTo size).size ≤ buf.size :=
  List.length_take_le' _ _

theorem getElem?_overwrite {pos i : Nat} {data : Bytes}
    (outside : i < pos ∨ pos + data.length ≤ i) :
    (buf.overwrite pos data).bytes[i]? = buf.bytes[i]? := by
  simp only [overwrite, size, List.append_assoc, List.getElem?_append, List.getElem?_take,
    List.getElem?_drop, List.length_take]
  grind

end Buffer

theorem Message.length_wrap {frame message : Bytes} (h : wrap frame = .ok message) :
    message.length = frame.length := by
  simp only [wrap] at h
  split at h
  · cases h
  · next w rest taken =>
      cases h
      rw [takeWord?_eq_some_iff.mp taken]
      simp only [List.length_append, Word.length_toBytes]

namespace Op

variable {op : Op} {draft : Draft}

/-- What a write, plain or not, does to the size and the limit of a buffer. -/
structure Bounds (draft : Draft) (op : Op) (after : Outcome × Draft) : Prop where
  limit : after.2.buf.limit = (op.taken after.1).foldl raised draft.buf.limit
  within : draft.buf.size ≤ draft.buf.limit → after.2.buf.size ≤ after.2.buf.limit
  grows : op ≠ .clear → draft.buf.size ≤ after.2.buf.size

theorem Bounds.of_eq {after : Outcome × Draft} (size : after.2.buf.size = draft.buf.size)
    (limit : after.2.buf.limit = draft.buf.limit)
    (raised : after.2.buf.limit = (op.taken after.1).foldl raised draft.buf.limit) :
    Bounds draft op after where
  limit := raised
  within fits := by rwa [size, limit]
  grows _ := Nat.le_of_eq size.symm

theorem Bounds.of_append {part : Bytes} {after : Outcome × Draft}
    (fits : part.length ≤ draft.buf.remaining) (appends : after.2.buf = draft.buf.append part)
    (raised : after.2.buf.limit = (op.taken after.1).foldl raised draft.buf.limit) :
    Bounds draft op after where
  limit := raised
  within within := by
    rw [appends]
    exact Buffer.size_append_le within fits
  grows _ := by
    rw [appends, Buffer.size_append]
    exact Nat.le_add_right _ _

theorem Goes.bounds {after : Outcome × Draft} (goes : Goes draft op after) :
    Bounds draft op after := by
  have raised := Step.law_limit.write goes
  cases goes with
  | appends part fits quiet => exact .of_append fits rfl raised
  | raises least =>
      exact ⟨raised, fun within => Nat.le_trans within (Nat.le_max_left _ _),
        fun _ => Nat.le_refl _⟩
  | reserves name room => exact .of_append room rfl raised
  | finishes size w found => exact .of_eq (Buffer.size_overwrite _ _ _) rfl raised
  | spends missed => exact .of_eq rfl rfl raised

theorem bounds (op : Op) (draft : Draft) : Bounds draft op (op.run draft) := by
  by_cases plain : op.Plain
  · exact (goes plain draft).bounds
  cases op with
  | clear => exact ⟨rfl, fun _ => Nat.zero_le _, fun other => absurd rfl other⟩
  | overwrite pos data => exact .of_eq (Buffer.size_overwrite _ _ _) rfl rfl
  | wrap =>
      simp only [run, Draft.wrap]
      cases wrapped : Message.wrap draft.buf.bytes with
      | error e => exact .of_eq rfl rfl rfl
      | ok message => exact .of_eq (Message.length_wrap wrapped) rfl rfl
  | _ => exact absurd trivial plain

end Op

/-- What it is to finish an open slot: it is stale if not all of its bytes are in the buffer,
and no other bytes change. -/
structure Slot.Finishes (slot : Slot) (draft : Draft) (after : Outcome × Draft) : Prop where
  stale : after.1 = .stale ↔ ¬ slot.start + wordSize ≤ draft.buf.size
  missed : after.1 = .stale → after.2.buf = draft.buf
  size : after.2.buf.size = draft.buf.size
  limit : after.2.buf.limit = draft.buf.limit
  elsewhere : ∀ i, i < slot.start ∨ slot.start + wordSize ≤ i →
    after.2.buf.bytes[i]? = draft.buf.bytes[i]?

theorem Slot.finishes {slot : Slot} {draft : Draft} {name : String}
    (found : draft.slots.get? name = some slot) (form : LengthForm) :
    slot.Finishes draft (draft.finish name form) := by
  rw [Draft.finish, found]
  simp only
  by_cases live : slot.Live draft.buf
  · have kept : ¬ ¬ slot.start + wordSize ≤ draft.buf.size := not_not_intro live
    rw [if_pos live, Draft.write, Write.on_finish]
    rcases form.word (draft.buf.size - slot.start) with e | w
    · have ends := Outcome.failed_ne_stale e
      exact ⟨iff_of_false ends kept, fun stale => absurd stale ends, rfl, rfl, fun _ _ => rfl⟩
    · have ends := Outcome.ok_ne_stale (.length (draft.buf.size - slot.start))
      exact ⟨iff_of_false ends kept, fun stale => absurd stale ends,
        draft.buf.size_overwrite _ _, rfl, fun _ outside => Buffer.getElem?_overwrite outside⟩
  · rw [if_neg live]
    exact ⟨iff_of_true rfl live, fun _ => rfl, rfl, rfl, fun _ _ => rfl⟩

/-- Where writes lead from a draft, in any order, if at any time the buffer may be cut back to
what it was earlier. The writes that took effect are told, those cut away included. -/
inductive Reaches : Draft → List Op → Draft → Prop
  | start (draft : Draft) : Reaches draft [] draft
  | write {first last : Draft} {ops : List Op} (before : Reaches first ops last) (op : Op) :
      Reaches first (ops ++ op.taken (op.run last).1) (op.run last).2
  | cut {first middle last : Draft} {front back : List Op} (before : Reaches first front middle)
      (inside : Reaches middle back last) :
      Reaches first (front ++ back) { last with buf := last.buf.cutTo middle.buf.size }

namespace Reaches

theorem trans {first middle last : Draft} {front back : List Op}
    (before : Reaches first front middle) (behind : Reaches middle back last) :
    Reaches first (front ++ back) last := by
  induction behind with
  | start => rwa [List.append_nil]
  | write _ op ih =>
      rw [← List.append_assoc]
      exact (ih before).write op
  | cut _ inside ih _ =>
      rw [← List.append_assoc]
      exact (ih before).cut inside

theorem composes : Step.Composes Reaches where
  nil := .start
  append := trans
  cut whole := .cut (.start _) whole

end Reaches

namespace Step

/-- Induction on steps: a transaction has what all steps in it have. -/
theorem induct {motive : Step → Prop} (write : ∀ op, motive (.write op))
    (attempt : ∀ step, motive step → motive (.attempt step))
    (transaction : ∀ body fail, (∀ step ∈ body, motive step) → motive (.transaction body fail)) :
    ∀ step, motive step
  | .write op => write op
  | .attempt step => attempt step (induct write attempt transaction step)
  | .transaction body fail =>
      transaction body fail fun step _ => induct write attempt transaction step

theorem Composes.step {R : Draft → List Op → Draft → Prop} (composes : Composes R)
    (each : ∀ (op : Op) (draft : Draft), R draft (op.taken (op.run draft).1) (op.run draft).2)
    (step : Step) (depth : Nat) (draft : Draft) :
    R draft (step.ops depth draft) (step.run depth draft).draft := by
  induction step using induct generalizing depth draft with
  | write op =>
      rw [ops_write]
      exact each op draft
  | attempt step ih =>
      rw [ops_attempt]
      exact ih depth draft
  | transaction body fail ih =>
      exact composes.transaction fail (composes.body ih (depth + 1) draft)

theorem reaches (step : Step) (depth : Nat) (draft : Draft) :
    Reaches draft (step.ops depth draft) (step.run depth draft).draft :=
  Reaches.composes.step (fun op draft => (Reaches.start draft).write op) step depth draft

theorem reaches_body (body : List Step) (depth : Nat) (draft : Draft) :
    Reaches draft (runBody depth body draft).ops (runBody depth body draft).draft :=
  Reaches.composes.body (fun step _ => step.reaches) depth draft

end Step

def Draft.ops (draft : Draft) : List Step → List Op
  | [] => []
  | step :: rest => step.ops 0 draft ++ (step.run 0 draft).draft.ops rest

theorem Draft.reaches (program : List Step) (draft : Draft) :
    Reaches draft (draft.ops program) (draft.run program).2 := by
  induction program generalizing draft with
  | nil => exact .start draft
  | cons step rest ih => exact (step.reaches 0 draft).trans (ih _)

namespace Reaches

variable {first last : Draft} {ops : List Op}

theorem limit (reached : Reaches first ops last) :
    last.buf.limit = ops.foldl Op.raised first.buf.limit := by
  induction reached with
  | start => rfl
  | @write _ last _ _ op ih => rw [List.foldl_append, ← ih, (op.bounds last).limit]
  | cut _ _ front back => rw [List.foldl_append, ← front, ← back, Buffer.cutTo]

theorem within (reached : Reaches first ops last) (start : first.buf.size ≤ first.buf.limit) :
    last.buf.size ≤ last.buf.limit := by
  induction reached with
  | start => exact start
  | @write _ last _ _ op ih => exact (op.bounds last).within (ih start)
  | cut _ _ front back => exact Nat.le_trans (Buffer.size_cutTo_le _ _) (back (front start))

end Reaches

/-- What holds of a draft wherever these writes have led from an empty buffer. -/
structure Draft.InBounds (limit : Nat) (ops : List Op) (draft : Draft) : Prop where
  within : draft.buf.size ≤ draft.buf.limit
  remaining : draft.buf.size + draft.buf.remaining = draft.buf.limit
  raised : draft.buf.limit = ops.foldl Op.raised limit
  put : ∀ data, ((Op.put data).run draft).1 = .ok .done ↔ data.length ≤ draft.buf.remaining
  reserve : ∀ name, ((Op.reserve name).run draft).1 = .ok .done →
    ∃ slot, ((Op.reserve name).run draft).2.slots.get? name = some slot ∧
      slot.start + wordSize ≤ ((Op.reserve name).run draft).2.buf.size
  grows : ∀ op : Op, op ≠ .clear → draft.buf.size ≤ (op.run draft).2.buf.size
  finish : ∀ name form slot, draft.slots.get? name = some slot →
    slot.Finishes draft ((Op.finish name form).run draft)

theorem Op.put_ok_iff (data : Bytes) (draft : Draft) :
    ((Op.put data).run draft).1 = .ok .done ↔ data.length ≤ draft.buf.remaining := by
  rw [run, Draft.write, Write.on_put]
  by_cases room : data.length ≤ draft.buf.remaining
  · rw [if_pos room]
    exact iff_of_true rfl room
  · rw [if_neg room]
    exact iff_of_false (Outcome.failed_ne_ok _ _) room

theorem Op.reserve_opens {name : String} {draft : Draft}
    (ok : ((Op.reserve name).run draft).1 = .ok .done) :
    ∃ slot, ((Op.reserve name).run draft).2.slots.get? name = some slot ∧
      slot.start + wordSize ≤ ((Op.reserve name).run draft).2.buf.size := by
  rw [run, Draft.reserve, Write.on_reserve, Write.putWord, Write.on_put] at ok ⊢
  by_cases room : (0 : Word).toBytes.length ≤ draft.buf.remaining
  · have size := draft.buf.size_append (0 : Word).toBytes
    rw [if_pos room]
    refine ⟨⟨draft.buf.size⟩, ?_, Nat.le_of_eq size.symm⟩
    rw [Registry.get?_set, if_pos rfl]
  · rw [if_neg room] at ok
    cases ok

/-- A draft that began empty, wherever writes and transactions of any depth have led it since:
the buffer holds no more than its limit, and the limit is the largest of the first one and all
that were asked for. What fits is put, and nothing else. An open slot is stale if its bytes are
no longer in the buffer, which only a clear or a cut can bring about, and to finish it changes
no other bytes. A further step, a body or a program leads to such a draft again. -/
theorem draft_stays_in_bounds {limit : Nat} {ops : List Op} {draft : Draft}
    (reached : Reaches ⟨⟨[], limit⟩, []⟩ ops draft) :
    draft.InBounds limit ops ∧
      (∀ (step : Step) (depth : Nat),
        Reaches ⟨⟨[], limit⟩, []⟩ (ops ++ step.ops depth draft) (step.run depth draft).draft) ∧
      (∀ (body : List Step) (depth : Nat),
        Reaches ⟨⟨[], limit⟩, []⟩ (ops ++ (Step.runBody depth body draft).ops)
          (Step.runBody depth body draft).draft) ∧
      ∀ program : List Step,
        Reaches ⟨⟨[], limit⟩, []⟩ (ops ++ draft.ops program) (draft.run program).2 := by
  have within : draft.buf.size ≤ draft.buf.limit := reached.within (Nat.zero_le limit)
  refine ⟨?_, fun step depth => reached.trans (step.reaches depth draft),
    fun body depth => reached.trans (Step.reaches_body body depth draft),
    fun program => reached.trans (draft.reaches program)⟩
  exact {
    within
    remaining := Nat.add_sub_of_le within
    raised := reached.limit
    put := fun data => Op.put_ok_iff data draft
    reserve := fun name => Op.reserve_opens
    grows := fun op => (op.bounds draft).grows
    finish := fun name form slot found => Slot.finishes found form }

/-- Behind a reserved word the limit is raised in a transaction that is cut back, and then the
buffer is cleared. -/
def clearedFrame : Step :=
  .transaction [.write (.reserve "frame"),
    .attempt (.transaction [.write (.raiseTo 20), .write (.put [1, 2])]
      (some { fault := .rowWithoutKey })),
    .write .clear] none

/-- The limit stays raised, the word is stale, and exactly 20 bytes can be put. -/
theorem draft_stays_in_bounds_cleared :
    ∃ (ops : List Op) (draft : Draft), Reaches ⟨⟨[], 8⟩, []⟩ ops draft ∧
      (clearedFrame.run 0 ⟨⟨[], 8⟩, []⟩).draft = draft ∧ draft.buf.size = 0 ∧
      draft.buf.limit = 20 ∧ draft.buf.limit = ops.foldl Op.raised 8 ∧
      ((Op.finish "frame" .raw).run draft).1 = .stale ∧
      ∀ data : Bytes, ((Op.put data).run draft).1 = .ok .done ↔ data.length ≤ 20 := by
  have reached := (draft_stays_in_bounds (.start ⟨⟨[], 8⟩, []⟩)).2.1 clearedFrame 0
  have bounds := (draft_stays_in_bounds reached).1
  have room : (clearedFrame.run 0 ⟨⟨[], 8⟩, []⟩).draft.buf.remaining = 20 := by decide +kernel
  have gone : ¬ 0 + wordSize ≤ (clearedFrame.run 0 ⟨⟨[], 8⟩, []⟩).draft.buf.size := by
    decide +kernel
  refine ⟨_, _, reached, rfl, by decide +kernel, by decide +kernel, bounds.raised,
    (bounds.finish "frame" .raw ⟨0⟩ (by decide +kernel)).stale.mpr gone, fun data => ?_⟩
  rw [bounds.put, room]

end TupleWire
