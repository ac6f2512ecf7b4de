import TupleWire.Frame.Padding
import TupleWire.Frame.Slot

/-! What a write appends, and exactly when it succeeds. A write lays bytes if it appends
them whole where it succeeds; where it fails, the bytes before it still stand. Either way it
appends no more than there is room for. -/
namespace TupleWire

/-- The lengths that a length word of either form can hold. -/
def LengthForm.Fits : LengthForm → Nat → Prop
  | .raw, size => size < 0x80000000
  | .shifted, size => size ≤ Limit.value

instance : (form : LengthForm) → (size : Nat) → Decidable (form.Fits size)
  | .raw, size => inferInstanceAs (Decidable (size < 0x80000000))
  | .shifted, size => inferInstanceAs (Decidable (size ≤ Limit.value))

def LengthForm.stored : LengthForm → Nat → Word
  | .raw, size => .ofNat size
  | .shifted, size => .ofNat (4 * size)

theorem LengthForm.word_of_fits {form : LengthForm} {size : Nat} (h : form.Fits size) :
    form.word size = .ok (form.stored size) := by
  cases form with
  | raw => exact if_pos h
  | shifted => exact if_pos h

theorem LengthForm.word_of_not_fits {form : LengthForm} {size : Nat} (h : ¬ form.Fits size) :
    ∃ e, form.word size = .error e := by
  cases form with
  | raw => exact ⟨_, if_neg h⟩
  | shifted => exact ⟨_, if_neg h⟩

namespace Layout

/-- A length word that counts itself, and the body behind it. -/
def frame (form : LengthForm) (body : Bytes) : Bytes :=
  (form.stored (wordSize + body.length)).toBytes ++ body

theorem length_frame (form : LengthForm) (body : Bytes) :
    (frame form body).length = wordSize + body.length := by
  rw [frame, List.length_append, Word.length_toBytes]

end Layout

namespace Buffer

theorem remaining_append (buf : Buffer) (data : Bytes) :
    (buf.append data).remaining = buf.remaining - data.length := by
  simp only [remaining, size, append, List.length_append]
  omega

theorem append_nil (buf : Buffer) : buf.append [] = buf := by
  simp [append]

theorem overwrite_append_word (buf : Buffer) (old new : Word) (data : Bytes) :
    (buf.append (old.toBytes ++ data)).overwrite buf.size new.toBytes =
      buf.append (new.toBytes ++ data) := by
  have shape : (buf.append (old.toBytes ++ data)).bytes = buf.bytes ++ old.toBytes ++ data := by
    simp [append]
  have same : new.toBytes.length = old.toBytes.length := rfl
  have bytes := bytes_overwrite shape same
  exact congrArg (Buffer.mk · buf.limit) (bytes.trans (List.append_assoc _ _ _))

end Buffer

namespace Write

variable {α β : Type}

theorem discard_eq (write : Write α) :
    Functor.discard write = (write >>= fun _ => pure ()) := by
  rw [Functor.discard, map_const, Function.comp_apply, map_eq_pure_bind]

/-- From `buf` on, the write appends `data` and gives `a` if the lengths in it are `valid`
and there is room for the whole; else it fails, behind what it then has found room for. -/
structure Lays (write : Write α) (buf : Buffer) (valid : Prop) (data : Bytes) (a : α) : Prop where
  laid : valid → data.length ≤ buf.remaining → write.on buf = (.ok a, buf.append data)
  refused : ¬ (valid ∧ data.length ≤ buf.remaining) →
    ∃ e part, part.length ≤ buf.remaining ∧ write.on buf = (.error e, buf.append part)

namespace Lays

variable {buf : Buffer} {valid next : Prop} {data more : Bytes} {a : α} {b : β}

theorem congr {write : Write α} (h : write.Lays buf valid data a) (same : valid ↔ next) :
    write.Lays buf next data a := by
  rwa [propext same] at h

theorem of_ok {write : Write α} (h : write.Lays buf valid data a) {given : α} {after : Buffer}
    (ok : write.on buf = (.ok given, after)) :
    valid ∧ data.length ≤ buf.remaining ∧ given = a ∧ after = buf.append data := by
  by_cases fits : valid ∧ data.length ≤ buf.remaining
  · have laid := h.laid fits.1 fits.2
    rw [ok] at laid
    obtain ⟨same, rfl⟩ := Prod.mk.inj laid
    exact ⟨fits.1, fits.2, Except.ok.inj same, rfl⟩
  · obtain ⟨e, part, -, refused⟩ := h.refused fits
    rw [ok] at refused
    cases refused

theorem pure (buf : Buffer) (a : α) : (Pure.pure a : Write α).Lays buf True [] a where
  laid _ _ := by rw [on_pure, Buffer.append_nil]
  refused h := absurd ⟨trivial, Nat.zero_le _⟩ h

theorem put (buf : Buffer) (data : Bytes) : (Write.put data).Lays buf True data () where
  laid _ room := by rw [on_put, if_pos room]
  refused h := by
    have full : ¬ data.length ≤ buf.remaining := fun room => h ⟨trivial, room⟩
    exact ⟨_, [], Nat.zero_le _, by rw [on_put, if_neg full, Buffer.append_nil]⟩

theorem bind {write : Write α} {f : α → Write β} (first : write.Lays buf valid data a)
    (second : (f a).Lays (buf.append data) next more b) :
    (write >>= f).Lays buf (valid ∧ next) (data ++ more) b where
  laid both room := by
    rw [List.length_append] at room
    have left : more.length ≤ (buf.append data).remaining := by
      rw [Buffer.remaining_append]
      omega
    rw [on_bind, first.laid both.1 (by omega)]
    simp only
    rw [second.laid both.2 left, Buffer.append_append]
  refused h := by
    by_cases begun : valid ∧ data.length ≤ buf.remaining
    · have stuck : ¬ (next ∧ more.length ≤ (buf.append data).remaining) := by
        rintro ⟨holds, left⟩
        rw [Buffer.remaining_append] at left
        exact h ⟨⟨begun.1, holds⟩, by rw [List.length_append]; omega⟩
      obtain ⟨e, part, room, failed⟩ := second.refused stuck
      rw [Buffer.remaining_append] at room
      refine ⟨e, data ++ part, by rw [List.length_append]; omega, ?_⟩
      rw [on_bind, first.laid begun.1 begun.2]
      simp only
      rw [failed, Buffer.append_append]
    · obtain ⟨e, part, room, failed⟩ := first.refused begun
      exact ⟨e, part, room, by rw [on_bind, failed]⟩

theorem seq {write : Write Unit} {rest : Write β} (first : write.Lays buf valid data ())
    (second : rest.Lays (buf.append data) next more b) :
    (do write; rest).Lays buf (valid ∧ next) (data ++ more) b :=
  first.bind second

theorem result_bind {f : α → Write β} {r : Except Error α}
    (holds : valid → r = .ok a) (fails : ¬ valid → ∃ e, r = .error e)
    (rest : (f a).Lays buf next data b) :
    (result r >>= f).Lays buf (valid ∧ next) data b where
  laid both room := by
    rw [on_bind, on_result, holds both.1]
    exact rest.laid both.2 room
  refused h := by
    by_cases begun : valid
    · obtain ⟨e, part, room, failed⟩ := rest.refused fun both => h ⟨⟨begun, both.1⟩, both.2⟩
      refine ⟨e, part, room, ?_⟩
      rw [on_bind, on_result, holds begun]
      exact failed
    · obtain ⟨e, failed⟩ := fails begun
      exact ⟨e, [], Nat.zero_le _, by rw [on_bind, on_result, failed, Buffer.append_nil]⟩

theorem discard {write : Write α} (h : write.Lays buf valid data a) :
    (Functor.discard write).Lays buf valid data () := by
  have whole := h.bind (f := fun _ => Pure.pure ()) (pure _ ())
  rw [List.append_nil] at whole
  rw [discard_eq]
  exact whole.congr (and_iff_left trivial)

theorem mapError {write : Write α} (h : write.Lays buf valid data a) (f : Error → Error) :
    (write.mapError f).Lays buf valid data a where
  laid holds room := by
    rw [on_mapError, h.laid holds room]
    rfl
  refused fails := by
    obtain ⟨e, part, room, failed⟩ := h.refused fails
    exact ⟨f e, part, room, by rw [on_mapError, failed]; rfl⟩

theorem atomically {write : Write α} (h : write.Lays buf valid data a) :
    (Write.atomically write).Lays buf valid data a where
  laid holds room := by rw [on_atomically, h.laid holds room]
  refused fails := by
    obtain ⟨e, part, -, failed⟩ := h.refused fails
    refine ⟨e, [], Nat.zero_le _, ?_⟩
    rw [on_atomically, failed]
    simp only
    rw [Buffer.cutTo_append, Buffer.append_nil]

theorem unchanged {write : Write α} (h : write.Lays buf valid data a)
    (fails : ¬ (valid ∧ data.length ≤ buf.remaining)) :
    ∃ e, (Write.atomically write).on buf = (.error e, buf) := by
  obtain ⟨e, part, -, failed⟩ := h.refused fails
  refine ⟨e, ?_⟩
  rw [on_atomically, failed]
  simp only
  rw [Buffer.cutTo_append]

theorem align (buf : Buffer) (n : Nat) :
    (Write.align n).Lays buf True (List.replicate (padding buf.size n) 0) (padding buf.size n) where
  laid _ room := by rw [on_align, (put buf _).laid trivial room]
  refused h := by
    obtain ⟨e, part, room, failed⟩ := (put buf _).refused h
    exact ⟨e, part, room, by rw [on_align, failed]⟩

theorem forM {γ : Type} {f : γ → Write Unit} {holds : γ → Prop} {bytes : γ → Bytes}
    (each : ∀ buf item, (f item).Lays buf (holds item) (bytes item) ()) (items : List γ)
    (buf : Buffer) :
    (items.forM f).Lays buf (∀ item ∈ items, holds item) (items.flatMap bytes) () := by
  induction items generalizing buf with
  | nil => exact (pure buf ()).congr (by simp)
  | cons item items ih =>
      exact ((each buf item).seq (ih (buf.append (bytes item)))).congr (by simp)

end Lays

/-- A length word, reserved first and filled in behind the write that it counts. -/
def framed (form : LengthForm) (write : Write Unit) : Write Nat := do
  let slot ← reserve
  write
  finish slot form

theorem Lays.framed {form : LengthForm} {write : Write Unit} {buf : Buffer} {valid : Prop}
    {body : Bytes} (inner : write.Lays (buf.append (0 : Word).toBytes) valid body ()) :
    (Write.framed form write).Lays buf (valid ∧ form.Fits (Layout.frame form body).length)
      (Layout.frame form body) (Layout.frame form body).length := by
  have begun : wordSize ≤ buf.remaining →
      reserve.on buf = (.ok ⟨buf.size⟩, buf.append (0 : Word).toBytes) := by
    intro room
    rw [on_reserve, putWord, (put buf (0 : Word).toBytes).laid trivial room]
  have left := buf.remaining_append (0 : Word).toBytes
  rw [Word.length_toBytes] at left
  have measured : (buf.append ((0 : Word).toBytes ++ body)).size - buf.size =
      wordSize + body.length := by
    rw [Buffer.size_append, List.length_append, Word.length_toBytes]
    omega
  rw [Layout.length_frame]
  constructor
  · rintro ⟨holds, fits⟩ room
    rw [Layout.length_frame] at room
    rw [Write.framed, on_bind, begun (by omega)]
    simp only
    rw [on_bind, inner.laid holds (by omega)]
    simp only
    rw [Buffer.append_append, on_finish, measured, LengthForm.word_of_fits fits]
    simp only
    rw [Buffer.overwrite_append_word, Layout.frame]
  · intro fails
    rw [Layout.length_frame] at fails
    by_cases room : wordSize ≤ buf.remaining
    · have whole : ∀ part : Bytes, part.length ≤ (buf.append (0 : Word).toBytes).remaining →
          ((0 : Word).toBytes ++ part).length ≤ buf.remaining := by
        intro part fits
        rw [List.length_append, Word.length_toBytes]
        omega
      rw [Write.framed, on_bind, begun room]
      simp only
      by_cases written : valid ∧ body.length ≤ (buf.append (0 : Word).toBytes).remaining
      · have long : ¬ form.Fits (wordSize + body.length) := by
          intro fits
          exact fails ⟨⟨written.1, fits⟩, by have := written.2; omega⟩
        obtain ⟨e, failed⟩ := LengthForm.word_of_not_fits long
        refine ⟨e, (0 : Word).toBytes ++ body, whole body written.2, ?_⟩
        rw [on_bind, inner.laid written.1 written.2]
        simp only
        rw [Buffer.append_append, on_finish, measured, failed]
      · obtain ⟨e, part, fits, failed⟩ := inner.refused written
        refine ⟨e, (0 : Word).toBytes ++ part, whole part fits, ?_⟩
        rw [on_bind, failed]
        simp only
        rw [Buffer.append_append]
    · have full : ¬ (True ∧ (0 : Word).toBytes.length ≤ buf.remaining) := fun both => room both.2
      obtain ⟨e, part, fits, failed⟩ := (put buf (0 : Word).toBytes).refused full
      exact ⟨e, part, fits, by rw [Write.framed, on_bind, on_reserve, putWord, failed]⟩

end Write

end TupleWire
