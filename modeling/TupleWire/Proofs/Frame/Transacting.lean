import TupleWire.Frame.Program
import TupleWire.Proofs.Frame.Layout

/-! Transactions that nest. To fail is to cut the buffer back, so a transaction undoes itself
only if nothing in it reaches below its own beginning. The one write that goes back in the buffer
fills a reserved word, and a word that was reserved inside the transaction lies behind its
beginning, also where an inner transaction has cut it away since. -/
namespace TupleWire

namespace Op

/-- Writes at the end of the buffer, raised limits, and the filling of reserved words. -/
def Plain : Op → Prop
  | .clear | .wrap | .overwrite _ _ => False
  | _ => True

/-- The limit after the write, given the one before. -/
def raised (limit : Nat) : Op → Nat
  | .raiseTo least => max limit least
  | _ => limit

/-- The names of reserved words after the write, given those before. -/
def opened (known : List String) : Op → List String
  | .reserve name => name :: known
  | _ => known

/-- The name of the reserved word that the write fills. -/
def filled? : Op → Option String
  | .finish name _ => some name
  | _ => none

/-- The write neither raises the limit nor reserves or fills a word. -/
def Quiet : Op → Prop
  | .raiseTo _ | .reserve _ | .finish _ _ => False
  | _ => True

theorem Quiet.raised {op : Op} (quiet : op.Quiet) (limit : Nat) : op.raised limit = limit := by
  cases op with
  | raiseTo least => cases quiet
  | _ => rfl

theorem Quiet.opened {op : Op} (quiet : op.Quiet) (known : List String) :
    op.opened known = known := by
  cases op with
  | reserve name => cases quiet
  | _ => rfl

theorem Quiet.filled {op : Op} (quiet : op.Quiet) : op.filled? = none := by
  cases op with
  | finish name form => cases quiet
  | _ => rfl

end Op

/-- Every reserved word that is filled has a known name or was reserved before, by these writes. -/
inductive Owned : List String → List Op → Prop
  | nil (known : List String) : Owned known []
  | cons {known : List String} {op : Op} {ops : List Op} (own : ∀ name ∈ op.filled?, name ∈ known)
      (others : Owned (op.opened known) ops) : Owned known (op :: ops)

theorem owned_cons {known : List String} {op : Op} {ops : List Op} :
    Owned known (op :: ops) ↔
      (∀ name ∈ op.filled?, name ∈ known) ∧ Owned (op.opened known) ops := by
  constructor
  · rintro (_ | ⟨own, others⟩)
    exact ⟨own, others⟩
  · rintro ⟨own, others⟩
    exact .cons own others

theorem owned_append {known : List String} {front back : List Op} :
    Owned known (front ++ back) ↔
      Owned known front ∧ Owned (front.foldl Op.opened known) back := by
  induction front generalizing known with
  | nil => exact (and_iff_right (.nil known)).symm
  | cons op front ih => simp only [List.cons_append, owned_cons, List.foldl_cons, ih, and_assoc]

def Step.op? : Step → Option Op
  | .write op => some op
  | .attempt step => step.op?
  | .transaction _ _ => none

def Entry.op? (entry : Entry) : Option Op :=
  match entry.outcome with
  | .ok _ => entry.step.op?
  | _ => none

/-- The writes inside a step that took effect, in order. Those that were cut away again are
among them. -/
def Run.ops (run : Run) : List Op := run.trace.filterMap Entry.op?

namespace Step

/-- Steps of which all writes are plain. -/
inductive Plain : Step → Prop
  | write {op : Op} (plain : op.Plain) : Plain (.write op)
  | attempt {step : Step} (plain : Plain step) : Plain (.attempt step)
  | transaction {body : List Step} {fail : Option Error} (plain : ∀ step ∈ body, Plain step) :
      Plain (.transaction body fail)

def entry (step : Step) (depth : Nat) (draft : Draft) : Entry :=
  let run := step.run depth draft
  { depth, step, outcome := run.outcome, size := run.draft.buf.size }

/-- The writes of a step that took effect, itself included. -/
def ops (step : Step) (depth : Nat) (draft : Draft) : List Op :=
  ((step.run depth draft).trace ++ [step.entry depth draft]).filterMap Entry.op?

end Step

/-- What a plain write does to a draft. -/
inductive Op.Goes (draft : Draft) : Op → Outcome × Draft → Prop
  | appends {op : Op} {outcome : Outcome} (part : Bytes) (fits : part.length ≤ draft.buf.remaining)
      (quiet : ∀ reply, outcome = .ok reply → op.Quiet) :
      Goes draft op (outcome, { draft with buf := draft.buf.append part })
  | raises (limit : Nat) :
      Goes draft (.raiseTo limit) (.ok .done, { draft with buf := draft.buf.raiseTo limit })
  | reserves (name : String) (room : (0 : Word).toBytes.length ≤ draft.buf.remaining) :
      Goes draft (.reserve name) (.ok .done,
        { buf := draft.buf.append (0 : Word).toBytes
          slots := draft.slots.set name ⟨draft.buf.size⟩ })
  | finishes {name : String} {form : LengthForm} {slot : Slot} (size : Nat) (w : Word)
      (found : draft.slots.get? name = some slot) :
      Goes draft (.finish name form) (.ok (.length size),
        { buf := draft.buf.overwrite slot.start w.toBytes, slots := draft.slots.erase name })
  | spends {name : String} {form : LengthForm} {outcome : Outcome}
      (missed : ∀ reply, outcome ≠ .ok reply) :
      Goes draft (.finish name form) (outcome, { draft with slots := draft.slots.erase name })

namespace Op

variable {op : Op} {draft : Draft}

theorem goes_of_lays {α : Type} {write : Write α} {reply : α → Reply} {valid : Prop}
    {data : Bytes} {a : α} (quiet : op.Quiet) (h : write.Lays draft.buf valid data a)
    (run : op.run draft = draft.write write reply) : Goes draft op (op.run draft) := by
  rw [run, Draft.write]
  by_cases fits : valid ∧ data.length ≤ draft.buf.remaining
  · rw [h.laid fits.1 fits.2]
    exact .appends data fits.2 fun _ _ => quiet
  · obtain ⟨e, part, room, failed⟩ := h.refused fits
    rw [failed]
    exact .appends part room fun _ _ => quiet

theorem goes_unchanged {outcome : Outcome} (missed : ∀ reply, outcome ≠ .ok reply) :
    Goes draft op (outcome, draft) := by
  have same : Goes draft op (outcome, { draft with buf := draft.buf.append [] }) :=
    .appends [] (Nat.zero_le _) fun reply ok => absurd ok (missed reply)
  rwa [Buffer.append_nil] at same

theorem goes_reserve (name : String) : Goes draft (.reserve name) (draft.reserve name) := by
  rw [Draft.reserve, Write.on_reserve, Write.putWord, Write.on_put]
  by_cases room : (0 : Word).toBytes.length ≤ draft.buf.remaining
  · rw [if_pos room]
    exact .reserves name room
  · rw [if_neg room]
    exact goes_unchanged (Outcome.failed_ne_ok _)

theorem goes_finish (name : String) (form : LengthForm) :
    Goes draft (.finish name form) (draft.finish name form) := by
  rw [Draft.finish]
  cases found : draft.slots.get? name with
  | none => exact .spends nofun
  | some slot =>
      simp only
      split
      · rw [Draft.write, Write.on_finish]
        rcases form.word (draft.buf.size - slot.start) with e | w
        · exact .spends nofun
        · exact .finishes _ w found
      · exact .spends nofun

theorem goes_align (n : Nat) : Goes draft (.align n) (draft.align n) := by
  rcases Nat.lt_or_ge Limit.allocation (padding draft.buf.size n) with many | made
  · rw [Draft.align_of_lt many]
    exact goes_unchanged Outcome.stale_ne_ok
  · exact goes_of_lays trivial (.align _ n) (Draft.align_of_le made)

theorem goes (plain : op.Plain) (draft : Draft) : Goes draft op (op.run draft) := by
  cases op with
  | clear => cases plain
  | wrap => cases plain
  | overwrite pos data => cases plain
  | raiseTo limit => exact .raises limit
  | reserve name => exact goes_reserve name
  | finish name form => exact goes_finish name form
  | put data => exact goes_of_lays trivial (.put _ data) rfl
  | putWord w => exact goes_of_lays trivial (.put _ w.toBytes) rfl
  | putScalar data => exact goes_of_lays trivial (Write.lays_putScalar data _) rfl
  | putObject object => exact goes_of_lays trivial (Write.lays_putObject object _) rfl
  | align n => exact goes_align n
  | putRow row columns =>
      cases columns with
      | error e => exact goes_unchanged (Outcome.failed_ne_ok e)
      | ok columns => exact goes_of_lays trivial (Write.lays_putRow row columns _) rfl

end Op

/-- The bytes are at the front of the buffer, and the reserved words with known names behind. -/
structure Kept (bytes : Bytes) (known : List String) (draft : Draft) : Prop where
  front : bytes <+: draft.buf.bytes
  behind : ∀ name ∈ known, ∀ slot, draft.slots.get? name = some slot → bytes.length ≤ slot.start

namespace Kept

variable {bytes : Bytes} {known : List String} {draft : Draft}

theorem append (h : Kept bytes known draft) (part : Bytes) :
    Kept bytes known { draft with buf := draft.buf.append part } :=
  ⟨h.front.trans (List.prefix_append _ _), h.behind⟩

theorem reserve (h : Kept bytes known draft) (name : String) :
    Kept bytes (name :: known)
      { buf := draft.buf.append (0 : Word).toBytes
        slots := draft.slots.set name ⟨draft.buf.size⟩ } := by
  refine ⟨(h.append _).front, fun other member slot found => ?_⟩
  rw [Registry.get?_set] at found
  split at found
  · cases found
    exact h.front.length_le
  · next different =>
      exact h.behind other ((List.mem_cons.mp member).resolve_left different) slot found

theorem erase (h : Kept bytes known draft) (name : String) :
    Kept bytes known { draft with slots := draft.slots.erase name } :=
  ⟨h.front, fun other member slot found =>
    h.behind other member slot (Registry.get?_of_erase found)⟩

theorem overwrite (h : Kept bytes known draft) {pos : Nat} (behind : bytes.length ≤ pos)
    (data : Bytes) : Kept bytes known { draft with buf := draft.buf.overwrite pos data } := by
  have front : bytes <+: draft.buf.bytes.take pos := List.prefix_take_iff.mpr ⟨h.front, behind⟩
  refine ⟨front.trans ?_, h.behind⟩
  rw [Buffer.overwrite, List.append_assoc]
  exact List.prefix_append _ _

theorem cutTo (h : Kept bytes known draft) {size : Nat} (behind : bytes.length ≤ size) :
    Kept bytes known { draft with buf := draft.buf.cutTo size } :=
  ⟨List.prefix_take_iff.mpr ⟨h.front, behind⟩, h.behind⟩

end Kept

/-- The writes that have taken effect when a write ends so. -/
def Op.taken (op : Op) : Outcome → List Op
  | .ok _ => [op]
  | _ => []

theorem Op.taken_of_not_ok {op : Op} {outcome : Outcome} (h : ∀ reply, outcome ≠ .ok reply) :
    op.taken outcome = [] := by
  cases outcome with
  | ok reply => exact absurd rfl (h reply)
  | failed e => rfl
  | stale => rfl

theorem Op.foldl_taken {α : Type} {op : Op} {outcome : Outcome} {f : α → Op → α} {a : α}
    (quiet : ∀ reply, outcome = .ok reply → f a op = a) : (op.taken outcome).foldl f a = a := by
  cases outcome with
  | ok reply => exact quiet reply rfl
  | failed e => rfl
  | stale => rfl

theorem owned_taken {known : List String} {op : Op} {outcome : Outcome}
    (quiet : ∀ reply, outcome = .ok reply → op.Quiet) : Owned known (op.taken outcome) := by
  cases outcome with
  | ok reply => exact .cons (by simp [(quiet reply rfl).filled]) (.nil _)
  | failed e => exact .nil known
  | stale => exact .nil known

/-- A relation between a draft, the writes that take effect on it and the draft behind them that
composes, and outlives the cut of a transaction that fails. -/
structure Step.Composes (R : Draft → List Op → Draft → Prop) : Prop where
  nil (draft : Draft) : R draft [] draft
  append {draft middle last : Draft} {front back : List Op} (first : R draft front middle)
    (second : R middle back last) : R draft (front ++ back) last
  cut {draft last : Draft} {ops : List Op} (whole : R draft ops last) :
    R draft ops { last with buf := last.buf.cutTo draft.buf.size }

/-- Such a relation that holds for each plain write. -/
structure Step.Law (R : Draft → List Op → Draft → Prop) : Prop extends Step.Composes R where
  write {draft next : Draft} {op : Op} {outcome : Outcome}
    (goes : Op.Goes draft op (outcome, next)) : R draft (op.taken outcome) next

namespace Run

variable (body : Run) (size : Nat) (fail : Option Error)

theorem ops_close : (body.close size fail).ops = body.ops := by
  unfold close
  split <;> rfl

theorem draft_close : (body.close size fail).draft = body.draft ∨
    (body.close size fail).draft = { body.draft with buf := body.draft.buf.cutTo size } := by
  unfold close
  split
  · exact .inl rfl
  · exact .inr rfl
  · exact .inr rfl
  · exact .inl rfl

theorem draft_close_of_failed {e : Error} (failed : (body.close size fail).outcome = .failed e) :
    (body.close size fail).draft = { body.draft with buf := body.draft.buf.cutTo size } := by
  obtain ⟨outcome, last, trace⟩ := body
  cases outcome with
  | stale => cases failed
  | failed e => rfl
  | ok reply =>
      cases fail with
      | none => cases failed
      | some e => rfl

end Run

namespace Step

theorem ops_write (op : Op) (depth : Nat) (draft : Draft) :
    (Step.write op).ops depth draft = op.taken (op.run draft).1 := by
  simp only [ops, run, entry, List.nil_append, List.filterMap_cons, List.filterMap_nil, Entry.op?]
  cases (op.run draft).1 <;> rfl

theorem ops_attempt (step : Step) (depth : Nat) (draft : Draft) :
    (Step.attempt step).ops depth draft = step.ops depth draft := by
  simp only [ops, run, entry, List.filterMap_append, List.filterMap_cons, Entry.op?, op?]

theorem ops_of_none {step : Step} {depth : Nat} {draft : Draft}
    (none : (step.entry depth draft).op? = none) :
    step.ops depth draft = (step.run depth draft).ops := by
  rw [ops, List.filterMap_append, List.filterMap_cons_none none, List.filterMap_nil,
    List.append_nil, Run.ops]

theorem ops_transaction (body : List Step) (fail : Option Error) (depth : Nat) (draft : Draft) :
    (Step.transaction body fail).ops depth draft = (runBody (depth + 1) body draft).ops := by
  have none : ((Step.transaction body fail).entry depth draft).op? = none := by
    unfold Entry.op?
    split <;> rfl
  rw [ops_of_none none, run, Run.ops_close]

theorem ops_transaction_eq (body : List Step) (fail : Option Error) (depth : Nat) (draft : Draft) :
    (Step.transaction body fail).ops depth draft =
      ((Step.transaction body fail).run depth draft).ops := by
  rw [ops_transaction, run, Run.ops_close]

/-- A body ends with its first step, or it goes on behind it. -/
theorem runBody_cons (depth : Nat) (step : Step) (rest : List Step) (draft : Draft) :
    (runBody depth (step :: rest) draft).draft = (step.run depth draft).draft ∧
        (runBody depth (step :: rest) draft).ops = step.ops depth draft ∨
      (runBody depth (step :: rest) draft).draft =
          (runBody depth rest (step.run depth draft).draft).draft ∧
        (runBody depth (step :: rest) draft).ops =
          step.ops depth draft ++ (runBody depth rest (step.run depth draft).draft).ops := by
  rw [runBody]
  simp only
  split
  · next stale =>
      have none : (step.entry depth draft).op? = none := by rw [Entry.op?, entry, stale]
      exact .inl ⟨rfl, (ops_of_none none).symm⟩
  · split
    · refine .inr ⟨rfl, ?_⟩
      rw [Run.ops, List.append_cons, List.filterMap_append]
      rfl
    · exact .inl ⟨rfl, rfl⟩

variable {R : Draft → List Op → Draft → Prop}

theorem Composes.body (composes : Composes R) {body : List Step}
    (each : ∀ step ∈ body, ∀ depth draft, R draft (step.ops depth draft) (step.run depth draft).draft)
    (depth : Nat) (draft : Draft) :
    R draft (runBody depth body draft).ops (runBody depth body draft).draft := by
  induction body generalizing draft with
  | nil => exact composes.nil draft
  | cons step rest ih =>
      obtain ⟨first, others⟩ := List.forall_mem_cons.mp each
      rcases runBody_cons depth step rest draft with ⟨ends, ops⟩ | ⟨ends, ops⟩
      · rw [ends, ops]
        exact first depth draft
      · rw [ends, ops]
        exact composes.append (first depth draft) (ih others _)

theorem Composes.transaction (composes : Composes R) {body : List Step} (fail : Option Error)
    {depth : Nat} {draft : Draft}
    (inner : R draft (runBody (depth + 1) body draft).ops (runBody (depth + 1) body draft).draft) :
    R draft ((Step.transaction body fail).ops depth draft)
      ((Step.transaction body fail).run depth draft).draft := by
  rw [ops_transaction, run]
  rcases Run.draft_close _ draft.buf.size _ with same | back
  · rw [same]
    exact inner
  · rw [back]
    exact composes.cut inner

/-- What each write has every plain step has, however deep its transactions nest. -/
theorem Law.step (law : Law R) {step : Step} (plain : step.Plain) (depth : Nat) (draft : Draft) :
    R draft (step.ops depth draft) (step.run depth draft).draft := by
  induction plain generalizing depth draft with
  | write plain =>
      rw [ops_write]
      exact law.write (Op.goes plain draft)
  | attempt plain ih =>
      rw [ops_attempt]
      exact ih depth draft
  | transaction plain ih => exact law.transaction _ (law.body ih (depth + 1) draft)

/-- The limit is only raised, and no cut takes that back. -/
theorem law_limit : Law fun draft ops last =>
    last.buf.limit = ops.foldl Op.raised draft.buf.limit where
  nil draft := rfl
  append first second := by rw [List.foldl_append, ← first, second]
  write goes := by
    cases goes with
    | appends part fits quiet => exact (Op.foldl_taken fun reply ok => (quiet reply ok).raised _).symm
    | raises limit => rfl
    | reserves name room => rfl
    | finishes size w found => rfl
    | spends missed =>
        rw [Op.taken_of_not_ok missed]
        rfl
  cut whole := whole

/-- What was in front of all reserved words that are filled is there still. -/
theorem law_kept : Law fun draft ops last =>
    ∀ bytes known, Kept bytes known draft → Owned known ops →
      Kept bytes (ops.foldl Op.opened known) last where
  nil draft bytes known kept _ := kept
  append first second bytes known kept owned := by
    obtain ⟨front, back⟩ := owned_append.mp owned
    rw [List.foldl_append]
    exact second bytes _ (first bytes known kept front) back
  write goes bytes known kept owned := by
    cases goes with
    | appends part fits quiet =>
        rw [Op.foldl_taken fun reply ok => (quiet reply ok).opened known]
        exact kept.append part
    | raises limit => exact ⟨kept.front, kept.behind⟩
    | reserves name room => exact kept.reserve name
    | @finishes name _ slot size w found =>
        have own : name ∈ known := (owned_cons.mp owned).1 name rfl
        have behind : bytes.length ≤ slot.start := kept.behind name own slot found
        exact (kept.overwrite behind _).erase name
    | spends missed =>
        rw [Op.taken_of_not_ok missed]
        exact kept.erase _
  cut whole bytes known kept owned := (whole bytes known kept owned).cutTo kept.front.length_le

/-- Where the names of all reserved words are known, no others are filled. -/
theorem law_owned : Law fun draft ops last =>
    ∀ known, (∀ name slot, draft.slots.get? name = some slot → name ∈ known) →
      Owned known ops ∧
        ∀ name slot, last.slots.get? name = some slot → name ∈ ops.foldl Op.opened known where
  nil draft known named := ⟨.nil known, named⟩
  append first second known named := by
    obtain ⟨front, middle⟩ := first known named
    obtain ⟨back, last⟩ := second _ middle
    rw [List.foldl_append]
    exact ⟨owned_append.mpr ⟨front, back⟩, last⟩
  write goes known named := by
    cases goes with
    | appends part fits quiet =>
        rw [Op.foldl_taken fun reply ok => (quiet reply ok).opened known]
        exact ⟨owned_taken quiet, named⟩
    | raises limit => exact ⟨.cons nofun (.nil known), named⟩
    | reserves name room =>
        refine ⟨.cons nofun (.nil _), fun other slot found => ?_⟩
        rw [Registry.get?_set] at found
        split at found
        · next same => exact List.mem_cons.mpr (.inl same)
        · exact List.mem_cons_of_mem _ (named other slot found)
    | @finishes name form slot size w found =>
        refine ⟨.cons ?_ (.nil known), fun other slot left =>
          named other slot (Registry.get?_of_erase left)⟩
        rintro _ ⟨⟩
        exact named name slot found
    | spends missed =>
        rw [Op.taken_of_not_ok missed]
        exact ⟨.nil known, fun other slot left => named other slot (Registry.get?_of_erase left)⟩
  cut whole := whole

theorem owned_of_no_slots {body : List Step} {fail : Option Error} (depth : Nat) (buf : Buffer)
    (plain : (Step.transaction body fail).Plain) :
    Owned [] ((Step.transaction body fail).run depth ⟨buf, []⟩).ops := by
  have owned := (law_owned.step plain depth ⟨buf, []⟩ [] nofun).1
  rwa [ops_transaction_eq] at owned

/-- A transaction of plain writes that fills no reserved words but its own, however deep it
stands and whatever nests in it: if it fails, the bytes are those from before it, and whatever
came of it, those are still in front. The limit is the largest of the one before and all that
were asked for, in what was cut away too. -/
theorem transaction_rolls_back {body : List Step} {fail : Option Error} {depth : Nat}
    {draft : Draft} {after : Run} (ran : (Step.transaction body fail).run depth draft = after)
    (plain : (Step.transaction body fail).Plain) (owned : Owned [] after.ops) :
    (∀ e, after.outcome = .failed e → after.draft.buf.bytes = draft.buf.bytes) ∧
      draft.buf.bytes <+: after.draft.buf.bytes ∧
      after.draft.buf.limit = after.ops.foldl Op.raised draft.buf.limit := by
  subst ran
  rw [← ops_transaction_eq] at owned ⊢
  have start : Kept draft.buf.bytes [] draft := ⟨List.prefix_refl _, nofun⟩
  have kept := law_kept.step plain depth draft draft.buf.bytes [] start owned
  refine ⟨fun e failed => ?_, kept.front, law_limit.step plain depth draft⟩
  have cut : ((Step.transaction body fail).run depth draft).draft =
      { (runBody (depth + 1) body draft).draft with
        buf := (runBody (depth + 1) body draft).draft.buf.cutTo draft.buf.size } :=
    Run.draft_close_of_failed _ _ _ failed
  have front := kept.front
  rw [cut] at front ⊢
  exact (front.eq_of_length_le (List.length_take_le _ _)).symm

/-- A word is reserved and cut away, and filled when other bytes have taken its place. -/
def lateFill : List Step :=
  [.attempt (.transaction [.write (.reserve "frame"), .write (.put [1])]
      (some { fault := .reported .usage none none })),
    .write (.put [9, 9, 9, 9, 9, 9]), .write (.finish "frame" .raw), .write (.raiseTo 20),
    .write (.putScalar [107])]

theorem plain_lateFill (fail : Option Error) : (Step.transaction lateFill fail).Plain := by
  refine .transaction ?_
  simp only [lateFill, List.forall_mem_cons]
  refine ⟨.attempt (.transaction ?_), .write trivial, .write trivial, .write trivial,
    .write trivial, nofun⟩
  simp only [List.forall_mem_cons]
  exact ⟨.write trivial, .write trivial, nofun⟩

/-- Behind one byte this transaction commits, or it is made to fail. The limit stays raised. -/
theorem transaction_rolls_back_late_fill :
    ∃ committed failed : Run,
      (Step.transaction lateFill none).run 0 ⟨⟨[255], 16⟩, []⟩ = committed ∧
      (Step.transaction lateFill (some { fault := .rowWithoutKey })).run 0 ⟨⟨[255], 16⟩, []⟩ =
        failed ∧
      (∀ fail, (Step.transaction lateFill fail).Plain) ∧
      Owned [] committed.ops ∧ committed.outcome = .ok .committed ∧
      committed.draft.buf = ⟨[255, 6, 0, 0, 0, 9, 9, 20, 0, 0, 0, 107], 20⟩ ∧
      [255] <+: committed.draft.buf.bytes ∧
      Owned [] failed.ops ∧ failed.outcome = .failed { fault := .rowWithoutKey } ∧
      failed.draft.buf.bytes = [255] ∧ failed.draft.buf.limit = 20 := by
  have own := owned_of_no_slots 0 ⟨[255], 16⟩ (plain_lateFill none)
  have owned := owned_of_no_slots 0 ⟨[255], 16⟩ (plain_lateFill (some { fault := .rowWithoutKey }))
  have fails : ((Step.transaction lateFill (some { fault := .rowWithoutKey })).run 0
      ⟨⟨[255], 16⟩, []⟩).outcome = .failed { fault := .rowWithoutKey } := by decide +kernel
  have kept := transaction_rolls_back rfl (plain_lateFill none) own
  have rolled := transaction_rolls_back rfl (plain_lateFill _) owned
  exact ⟨_, _, rfl, rfl, plain_lateFill, own, by decide +kernel, by decide +kernel, kept.2.1,
    owned, fails, rolled.1 _ fails, rolled.2.2.trans (by decide +kernel)⟩

end Step

end TupleWire
