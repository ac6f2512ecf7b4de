import TupleWire.Proofs.Frame.Layout

/-! Why a row cannot be written: there is no room for it or for one of its lengths, or it has
no key where one is to be shown. -/
namespace TupleWire

namespace Write

variable {α β : Type}

/-- What a row can be refused for. More room, or a longer length word, mends all but the last. -/
inductive Obstacle : Fault → Prop
  | bufferFull (need remaining : Nat) : Obstacle (.bufferFull need remaining)
  | valueTooLong (size : Nat) : Obstacle (.valueTooLong size)
  | lengthTooLong : Obstacle .lengthTooLong
  | tooManyEntries (count : Nat) : Obstacle (.tooManyEntries count)
  | rowWithoutKey : Obstacle .rowWithoutKey

/-- From any buffer on, the write fails for one of these causes or not at all. -/
def Stops (write : Write α) : Prop :=
  ∀ buf e next, write.on buf = (.error e, next) → Obstacle e.fault

namespace Stops

theorem pure (a : α) : (Pure.pure a : Write α).Stops := by
  intro buf e next failed
  cases failed

theorem throw {e : Error} (cause : Obstacle e.fault) : (throw e : Write α).Stops := by
  intro buf other next failed
  cases failed
  exact cause

theorem bind {write : Write α} {f : α → Write β} (first : write.Stops) (second : ∀ a, (f a).Stops) :
    (write >>= f).Stops := by
  intro buf e next failed
  rw [on_bind] at failed
  rcases given : write.on buf with ⟨e' | a, between⟩
  · rw [given] at failed
    cases failed
    exact first buf _ _ given
  · rw [given] at failed
    exact second a between e next failed

theorem seq {write : Write Unit} {rest : Write β} (first : write.Stops) (second : rest.Stops) :
    (do write; rest).Stops :=
  first.bind fun _ => second

theorem discard {write : Write α} (h : write.Stops) : (Functor.discard write).Stops := by
  rw [discard_eq]
  exact h.bind fun _ => pure ()

theorem mapError {write : Write α} (h : write.Stops) {f : Error → Error}
    (kept : ∀ e, (f e).fault = e.fault) : (write.mapError f).Stops := by
  intro buf e next failed
  rw [on_mapError] at failed
  rcases given : write.on buf with ⟨cause | a, after⟩
  · rw [given] at failed
    cases failed
    rw [kept]
    exact h buf _ _ given
  · rw [given] at failed
    cases failed

theorem atomically {write : Write α} (h : write.Stops) : (Write.atomically write).Stops := by
  intro buf e next failed
  rw [on_atomically] at failed
  rcases given : write.on buf with ⟨cause | a, after⟩
  · rw [given] at failed
    cases failed
    exact h buf _ _ given
  · rw [given] at failed
    cases failed

theorem forM {γ : Type} {f : γ → Write Unit} (each : ∀ item, (f item).Stops) (items : List γ) :
    (items.forM f).Stops := by
  induction items with
  | nil => exact pure ()
  | cons item items ih => exact (each item).seq ih

theorem put (data : Bytes) : (Write.put data).Stops := by
  intro buf e next failed
  rw [on_put] at failed
  split at failed
  · cases failed
  · cases failed
    exact .bufferFull _ _

theorem length (form : LengthForm) (size : Nat) : (result (form.word size)).Stops := by
  intro buf e next failed
  rw [on_result] at failed
  have cause : form.word size = .error e := congrArg Prod.fst failed
  cases form with
  | raw =>
      rw [LengthForm.word] at cause
      split at cause
      · cases cause
      · cases cause
        exact .lengthTooLong
  | shifted =>
      rw [LengthForm.word] at cause
      split at cause
      · cases cause
      · cases cause
        exact .valueTooLong _

theorem align (n : Nat) : (Write.align n).Stops := by
  intro buf e next failed
  rw [on_align] at failed
  rcases given : (Write.put (List.replicate (padding buf.size n) 0)).on buf with ⟨cause | a, after⟩
  · rw [given] at failed
    cases failed
    exact put _ buf _ _ given
  · rw [given] at failed
    cases failed

theorem framed (form : LengthForm) {write : Write Unit} (inner : write.Stops) :
    (Write.framed form write).Stops := by
  have begin : reserve.Stops := by
    intro buf e next failed
    rw [on_reserve] at failed
    rcases given : (putWord 0).on buf with ⟨cause | a, after⟩
    · rw [given] at failed
      cases failed
      exact put _ buf _ _ given
    · rw [given] at failed
      cases failed
  have finishes : ∀ slot, (finish slot form).Stops := by
    intro slot buf e next failed
    rw [on_finish] at failed
    rcases given : form.word (buf.size - slot.start) with cause | word
    · rw [given] at failed
      cases failed
      exact length form (buf.size - slot.start) buf e buf (by rw [on_result, given])
    · rw [given] at failed
      cases failed
  exact begin.bind fun slot => inner.seq (finishes slot)

end Stops

theorem stops_putScalar (data : Bytes) : (putScalar data).Stops :=
  (Stops.length .shifted _).bind fun header =>
    ((Stops.put header.toBytes).seq ((Stops.put data).seq (Stops.pure _))).atomically

theorem stops_putLengths (items : List Bytes) : (putLengths items).Stops :=
  Stops.forM (fun _ => (Stops.length .raw _).bind fun word => Stops.put word.toBytes) items

theorem stops_putObject (object : Object) : (putObject object).Stops := by
  have body : (putObjectBody object).Stops :=
    (Stops.put _).seq ((stops_putLengths object.keys).seq ((stops_putLengths object.values).seq
      ((Stops.forM Stops.put object.keys).seq (Stops.forM Stops.put object.values))))
  rw [putObject_eq]
  split
  · exact Stops.throw (.tooManyEntries _)
  · exact (Stops.framed .shifted body).atomically

theorem stops_putValue (row : Row) (column : Column) : (putValue row column).Stops := by
  cases column with
  | rowKey =>
      cases row with
      | nil => exact Stops.throw .rowWithoutKey
      | cons cell cells => exact (stops_putScalar cell.row).discard
  | family name => exact (stops_putObject ⟨row.entries name⟩).discard
  | leaf name qualifier => exact Stops.pure ()

theorem stops_putColumns (row : Row) (list : List Column) (index : Nat) :
    (putColumns row index list).Stops := by
  induction list generalizing index with
  | nil => exact Stops.pure ()
  | cons column list ih =>
      have first : (putColumn row column).Stops := by
        rw [putColumn_eq]
        exact (Stops.framed .raw
          ((stops_putValue row column).seq (Stops.align wordSize).discard)).discard
      have located : ((putColumn row column).mapError (·.atColumn index)).Stops :=
        first.mapError fun _ => rfl
      exact located.seq (ih (index + 1))

theorem stops_putRow (row : Row) (list : List Column) : (putRow row list).Stops := by
  rw [putRow_eq]
  exact (Stops.framed .raw ((stops_putColumns row list 0).seq (Stops.put _))).atomically

/-- A row that no room mends has no key. -/
theorem fault_of_putRow {row : Row} {list : List Column} {buf next : Buffer} {e : Error}
    (failed : (putRow row list).on buf = (.error e, next)) (fatal : e.retryable = false) :
    e.fault = .rowWithoutKey := by
  have cause := stops_putRow row list buf e next failed
  rw [Error.retryable, Error.kind] at fatal
  cases fault : e.fault with
  | rowWithoutKey => rfl
  | _ =>
      rw [fault] at cause fatal
      cases cause
      all_goals cases fatal

end Write

end TupleWire
