import TupleWire.Proofs.Frame.Bracketing
import TupleWire.Proofs.Frame.Layout

/-! Frames inside frames. A reserved word is only a position, and it is filled after whatever was
written behind it; while the words are filled in turn, the last reserved first, each finds its own
four bytes and the number of bytes from there to the end of the buffer. -/
namespace TupleWire

namespace Content

/-- The bytes of a content at position `pos`. The word of a frame counts the bytes from itself to
the end of the frame, and only padding depends on the position. -/
def layout : (pos : Nat) → Content → Bytes
  | _, .nil => []
  | pos, .bytes data rest => data ++ rest.layout (pos + data.length)
  | pos, .padding n rest =>
      Layout.zeros (TupleWire.padding pos n) ++ rest.layout (pos + TupleWire.padding pos n)
  | pos, .frame form inner rest =>
      let whole := Layout.frame form (inner.layout (pos + wordSize))
      whole ++ rest.layout (pos + whole.length)

/-- The length of every frame can be told in the form of its word, and the zeros of every padding
can be made. -/
def Fits : (pos : Nat) → Content → Prop
  | _, .nil => True
  | pos, .bytes data rest => rest.Fits (pos + data.length)
  | pos, .padding n rest =>
      TupleWire.padding pos n ≤ Limit.allocation ∧ rest.Fits (pos + TupleWire.padding pos n)
  | pos, .frame form inner rest =>
      let whole := Layout.frame form (inner.layout (pos + wordSize))
      inner.Fits (pos + wordSize) ∧ form.Fits whole.length ∧ rest.Fits (pos + whole.length)

instance decidableFits : (pos : Nat) → (content : Content) → Decidable (content.Fits pos)
  | _, .nil => inferInstanceAs (Decidable True)
  | pos, .bytes data rest => decidableFits (pos + data.length) rest
  | pos, .padding n rest =>
      have := decidableFits (pos + TupleWire.padding pos n) rest
      inferInstanceAs (Decidable (_ ∧ _))
  | pos, .frame form inner rest =>
      have := decidableFits (pos + wordSize) inner
      have := decidableFits (pos + (Layout.frame form (inner.layout (pos + wordSize))).length) rest
      inferInstanceAs (Decidable (_ ∧ _ ∧ _))

/-- What the writes of a content reply, in their order: padding is told its length, and the
filling of a word the length of its frame. -/
def replies : (pos : Nat) → Content → List Reply
  | _, .nil => []
  | pos, .bytes data rest => .done :: rest.replies (pos + data.length)
  | pos, .padding n rest =>
      .length (TupleWire.padding pos n) :: rest.replies (pos + TupleWire.padding pos n)
  | pos, .frame form inner rest =>
      let whole := Layout.frame form (inner.layout (pos + wordSize))
      .done :: inner.replies (pos + wordSize) ++
        .length whole.length :: rest.replies (pos + whole.length)

end Content

namespace Draft

theorem run_append (draft : Draft) (front back : List Step) :
    draft.run (front ++ back) =
      ((draft.run front).1 ++ ((draft.run front).2.run back).1,
        ((draft.run front).2.run back).2) := by
  induction front generalizing draft with
  | nil => rfl
  | cons step front ih => simp only [List.cons_append, run, ih]

theorem run_write (draft : Draft) (op : Op) :
    draft.run [.write op] = ([(op.run draft).1], (op.run draft).2) := rfl

def opening (draft : Draft) (name : String) : Draft :=
  { buf := draft.buf.append (0 : Word).toBytes, slots := draft.slots.set name ⟨draft.buf.size⟩ }

section Word

variable {draft : Draft} {name : String} {form : LengthForm}

theorem run_reserve (room : wordSize ≤ draft.buf.remaining) :
    (Op.reserve name).run draft = (.ok .done, draft.opening name) := by
  have fits : (0 : Word).toBytes.length ≤ draft.buf.remaining := room
  rw [Op.run, reserve, Write.on_reserve, Write.putWord, Write.on_put, if_pos fits]
  rfl

theorem run_reserve_full (full : ¬ wordSize ≤ draft.buf.remaining) (name : String) :
    ∃ e, ((Op.reserve name).run draft).1 = .failed e := by
  have fails : ¬ (0 : Word).toBytes.length ≤ draft.buf.remaining := full
  rw [Op.run, reserve, Write.on_reserve, Write.putWord, Write.on_put, if_neg fails]
  exact ⟨_, rfl⟩

/-- What was written behind a word has not moved it, and to fill it changes none of that. -/
theorem run_finish {last : Registry Slot} {data : Bytes}
    (own : last.get? name = some ⟨draft.buf.size⟩) :
    (Op.finish name form).run { buf := (draft.opening name).buf.append data, slots := last } =
      match form.word (wordSize + data.length) with
      | .ok w => (.ok (.length (wordSize + data.length)),
          { buf := draft.buf.append (w.toBytes ++ data), slots := last.erase name })
      | .error e => (.failed e,
          { buf := (draft.opening name).buf.append data, slots := last.erase name }) := by
  have size : ((draft.opening name).buf.append data).size =
      draft.buf.size + (wordSize + data.length) := by
    simp only [opening, Buffer.size_append, Word.length_toBytes, Nat.add_assoc]
  have live : Slot.Live ⟨draft.buf.size⟩ ((draft.opening name).buf.append data) := by
    simp only [Slot.Live, size]
    omega
  simp only [Op.run, finish, own, if_pos live, Draft.write, Write.on_finish, size,
    Nat.add_sub_cancel_left]
  cases form.word (wordSize + data.length) with
  | error e => rfl
  | ok w => simp only [opening, Buffer.append_append, Buffer.overwrite_append_word]

end Word

/-- From a draft on, a program of writes gives these replies and appends these bytes if the lengths
in them are `valid` and there is room for the whole; else one of its writes does not succeed. The
words that are `opened` stay reserved. -/
structure Lays (draft : Draft) (opened : List String) (ops : List Op) (valid : Prop) (data : Bytes)
    (replies : List Reply) : Prop where
  laid : valid → data.length ≤ draft.buf.remaining →
    ∃ slots : Registry Slot,
      draft.run (ops.map .write) = (replies.map .ok, { buf := draft.buf.append data, slots }) ∧
        ∀ name ∈ opened, slots.get? name = draft.slots.get? name
  refused : ¬ (valid ∧ data.length ≤ draft.buf.remaining) →
    ∃ outcome ∈ (draft.run (ops.map .write)).1, ∀ reply, outcome ≠ .ok reply

namespace Lays

variable {draft : Draft} {opened : List String} {ops back : List Op} {valid next : Prop}
  {data more : Bytes} {replies later : List Reply}

theorem congr (h : Lays draft opened ops valid data replies) (same : valid ↔ next) :
    Lays draft opened ops next data replies := by
  rwa [propext same] at h

theorem nil (draft : Draft) (opened : List String) : Lays draft opened [] True [] [] where
  laid _ _ := ⟨draft.slots, by simp [run, Buffer.append_nil], fun _ _ => rfl⟩
  refused fails := absurd ⟨trivial, Nat.zero_le _⟩ fails

theorem append (first : Lays draft opened ops valid data replies)
    (second : ∀ slots, Lays { buf := draft.buf.append data, slots } opened back next more later) :
    Lays draft opened (ops ++ back) (valid ∧ next) (data ++ more) (replies ++ later) where
  laid both room := by
    rw [List.length_append] at room
    have left := draft.buf.remaining_append data
    obtain ⟨slots, ran, kept⟩ := first.laid both.1 (by omega)
    obtain ⟨last, ranBack, keptBack⟩ := (second slots).laid both.2 (by simp only; omega)
    refine ⟨last, ?_, fun name open_ => (keptBack name open_).trans (kept name open_)⟩
    simp only [List.map_append, run_append, ran, ranBack, Buffer.append_append]
  refused fails := by
    rw [List.map_append, run_append]
    by_cases begun : valid ∧ data.length ≤ draft.buf.remaining
    · have left := draft.buf.remaining_append data
      obtain ⟨slots, ran, -⟩ := first.laid begun.1 begun.2
      obtain ⟨outcome, reached, missed⟩ := (second slots).refused fun both => by
        refine fails ⟨⟨begun.1, both.1⟩, ?_⟩
        have room := both.2
        simp only at room
        rw [List.length_append]
        omega
      exact ⟨outcome, List.mem_append_right _ (by rwa [ran]), missed⟩
    · obtain ⟨outcome, reached, missed⟩ := first.refused begun
      exact ⟨outcome, List.mem_append_left _ reached, missed⟩

theorem write {α : Type} {write : Write α} {reply : α → Reply} {a : α} {op : Op}
    (h : write.Lays draft.buf valid data a) (ran : op.run draft = draft.write write reply)
    (opened : List String) : Lays draft opened [op] valid data [reply a] where
  laid holds room := by
    refine ⟨draft.slots, ?_, fun _ _ => rfl⟩
    rw [List.map_singleton, run_write, ran, Draft.write, h.laid holds room]
    rfl
  refused fails := by
    obtain ⟨e, part, -, failed⟩ := h.refused fails
    refine ⟨.failed e, ?_, Outcome.failed_ne_ok e⟩
    rw [List.map_singleton, run_write, ran, Draft.write, failed]
    exact List.mem_singleton_self _

theorem ahead {α : Type} {write : Write α} {reply : α → Reply} {a : α} {op : Op}
    (h : write.Lays draft.buf True data a) (ran : op.run draft = draft.write write reply)
    (behind : ∀ slots, Lays { buf := draft.buf.append data, slots } opened back next more later) :
    Lays draft opened (op :: back) next (data ++ more) (reply a :: later) :=
  ((Lays.write h ran opened).append behind).congr (and_iff_right trivial)

theorem align (draft : Draft) (opened : List String) (n : Nat) :
    Lays draft opened [.align n] (padding draft.buf.size n ≤ Limit.allocation)
      (Layout.zeros (padding draft.buf.size n)) [.length (padding draft.buf.size n)] := by
  rcases Nat.lt_or_ge Limit.allocation (padding draft.buf.size n) with many | made
  · refine ⟨fun made => absurd made (Nat.not_le_of_lt many),
      fun _ => ⟨.stale, ?_, Outcome.stale_ne_ok⟩⟩
    rw [List.map_singleton, run_write, Op.run, align_of_lt many]
    exact List.mem_singleton_self _
  · have ran : (Op.align n).run draft = draft.write (.align n) .length := align_of_le made
    exact (write (Write.Lays.align draft.buf n) ran opened).congr (iff_of_true trivial made)

theorem frame {name : String} (form : LengthForm)
    (inner : Lays (draft.opening name) (name :: opened) ops valid data replies)
    (fresh : name ∉ opened) :
    Lays draft opened (.reserve name :: ops ++ [.finish name form])
      (valid ∧ form.Fits (Layout.frame form data).length) (Layout.frame form data)
      (.done :: replies ++ [.length (Layout.frame form data).length]) := by
  have split : (.reserve name :: ops ++ [.finish name form] : List Op).map Step.write =
      [.write (.reserve name)] ++ (ops.map .write ++ [.write (.finish name form)]) := by simp
  have left : (draft.opening name).buf.remaining = draft.buf.remaining - wordSize :=
    draft.buf.remaining_append (0 : Word).toBytes
  have own : (draft.opening name).slots.get? name = some ⟨draft.buf.size⟩ := by
    rw [opening, Registry.get?_set, if_pos rfl]
  rw [Layout.length_frame]
  constructor
  · rintro ⟨holds, fits⟩ room
    rw [Layout.length_frame] at room
    obtain ⟨last, ran, kept⟩ := inner.laid holds (by omega)
    refine ⟨last.erase name, ?_, fun other open_ => ?_⟩
    · rw [split, run_append, run_write, run_reserve (by omega), run_append, ran, run_write,
        run_finish ((kept name List.mem_cons_self).trans own), LengthForm.word_of_fits fits]
      simp [Layout.frame]
    · have different : other ≠ name := fun same => fresh (same ▸ open_)
      rw [Registry.get?_erase, if_neg different, kept other (List.mem_cons_of_mem _ open_), opening,
        Registry.get?_set, if_neg different]
  · intro fails
    rw [Layout.length_frame] at fails
    rw [split, run_append, run_write]
    by_cases room : wordSize ≤ draft.buf.remaining
    · rw [run_reserve room, run_append]
      by_cases written : valid ∧ data.length ≤ (draft.opening name).buf.remaining
      · have long : ¬ form.Fits (wordSize + data.length) := by
          intro fits
          exact fails ⟨⟨written.1, fits⟩, by have short := written.2; omega⟩
        obtain ⟨e, refused⟩ := LengthForm.word_of_not_fits long
        obtain ⟨last, ran, kept⟩ := inner.laid written.1 written.2
        refine ⟨.failed e, List.mem_append_right _ (List.mem_append_right _ ?_),
          Outcome.failed_ne_ok e⟩
        rw [ran, run_write, run_finish ((kept name List.mem_cons_self).trans own), refused]
        exact List.mem_singleton_self _
      · obtain ⟨outcome, reached, missed⟩ := inner.refused written
        exact ⟨outcome, List.mem_append_right _ (List.mem_append_left _ reached), missed⟩
    · obtain ⟨e, failed⟩ := run_reserve_full room name
      refine ⟨.failed e, List.mem_append_left _ ?_, Outcome.failed_ne_ok e⟩
      rw [failed]
      exact List.mem_singleton_self _

end Lays

end Draft

/-- The writes that spell a content lay its bytes. -/
theorem Spells.lays {opened : List String} {ops : List Op} {content : Content}
    (spelled : Spells opened ops content) (draft : Draft) :
    draft.Lays opened ops (content.Fits draft.buf.size) (content.layout draft.buf.size)
      (content.replies draft.buf.size) := by
  induction spelled generalizing draft with
  | nil opened => exact .nil draft opened
  | @put opened ops rest data others ih =>
      have ran : (Op.put data).run draft = draft.write (.put data) fun _ => .done := rfl
      refine .ahead (Write.Lays.put draft.buf data) ran fun slots => ?_
      have later := ih { buf := draft.buf.append data, slots }
      rwa [Buffer.size_append] at later
  | @putWord opened ops rest w others ih =>
      have ran : (Op.putWord w).run draft = draft.write (.putWord w) fun _ => .done := rfl
      refine .ahead (Write.Lays.put draft.buf w.toBytes) ran fun slots => ?_
      have later := ih { buf := draft.buf.append w.toBytes, slots }
      rwa [Buffer.size_append] at later
  | @align opened ops rest n others ih =>
      refine (Draft.Lays.align draft opened n).append fun slots => ?_
      have later := ih { buf := draft.buf.append (Layout.zeros (padding draft.buf.size n)), slots }
      rwa [Buffer.size_append, Layout.zeros, List.length_replicate] at later
  | @frame opened body ops name inner rest form fresh within others ihWithin ihOthers =>
      have inside := ihWithin (draft.opening name)
      simp only [Draft.opening, Buffer.size_append, Word.length_toBytes] at inside
      have framed := Draft.Lays.frame form inside fresh
      have later := fun slots => ihOthers { buf := draft.buf.append (Layout.frame form
        (inner.layout (draft.buf.size + wordSize))), slots }
      simp only [Buffer.size_append] at later
      have whole := (framed.append later).congr and_assoc
      simp only [List.append_assoc, List.cons_append, List.nil_append] at whole
      exact whole

/-- A well-bracketed program spells one tree of frames. It succeeds exactly if the lengths of these
can be told, the zeros of its paddings can be made and the limit is not exceeded; then the buffer
has gained the bytes of the tree, with every word filled, and each filling replied the length of
its frame. -/
theorem program_lays_content {ops : List Op} {draft : Draft} (bracketed : WellBracketed ops)
    (within : draft.buf.size ≤ draft.buf.limit) :
    ∃ content, (∀ other, Spells [] ops other ↔ other = content) ∧
      let bytes := content.layout draft.buf.size
      let ran := draft.run (ops.map .write)
      ((∀ outcome ∈ ran.1, ∃ reply, outcome = .ok reply) ↔
        content.Fits draft.buf.size ∧ draft.buf.size + bytes.length ≤ draft.buf.limit) ∧
      (content.Fits draft.buf.size → draft.buf.size + bytes.length ≤ draft.buf.limit →
        ran.1 = (content.replies draft.buf.size).map .ok ∧
          ran.2.buf = { bytes := draft.buf.bytes ++ bytes, limit := draft.buf.limit }) := by
  obtain ⟨content, only⟩ := wellBracketed_iff.mp bracketed
  have lays := ((only content).mpr rfl).lays draft
  have room : (content.layout draft.buf.size).length ≤ draft.buf.remaining ↔
      draft.buf.size + (content.layout draft.buf.size).length ≤ draft.buf.limit := by
    unfold Buffer.remaining
    omega
  have laid := fun fits small => lays.laid fits (room.mpr small)
  refine ⟨content, only, ⟨fun succeeds => ?_, fun both outcome member => ?_⟩, fun fits small => ?_⟩
  · rw [← room]
    refine Classical.byContradiction fun fails => ?_
    obtain ⟨outcome, reached, missed⟩ := lays.refused fails
    obtain ⟨reply, ok⟩ := succeeds outcome reached
    exact missed reply ok
  · obtain ⟨slots, ran, -⟩ := laid both.1 both.2
    rw [ran] at member
    obtain ⟨reply, -, same⟩ := List.mem_map.mp member
    exact ⟨reply, same.symm⟩
  · obtain ⟨slots, ran, -⟩ := laid fits small
    rw [ran]
    exact ⟨rfl, rfl⟩

/-- Both forms, one inside the other, padding that depends on the place, an empty frame under a
name that is free again, and a limit that is just reached. -/
theorem program_lays_content_both_forms :
    let ops : List Op := [.reserve "row", .putWord 7, .reserve "value", .put [1, 2], .align 4,
      .finish "value" .shifted, .reserve "value", .finish "value" .raw, .put [9],
      .finish "row" .raw]
    let draft : Draft := { buf := ⟨[255], 21⟩, slots := [("row", ⟨0⟩)] }
    WellBracketed ops ∧ draft.buf.size ≤ draft.buf.limit ∧
      (draft.run (ops.map .write)).1 = [.ok .done, .ok .done, .ok .done, .ok .done,
        .ok (.length 1), .ok (.length 7), .ok .done, .ok (.length 4), .ok .done,
        .ok (.length 20)] ∧
      (draft.run (ops.map .write)).2.buf = ⟨[255, 20, 0, 0, 0, 7, 0, 0, 0, 28, 0, 0, 0, 1, 2, 0,
        4, 0, 0, 0, 9], 21⟩ := by
  intro ops draft
  let tree : Content := .frame .raw (.bytes [7, 0, 0, 0] (.frame .shifted
    (.bytes [1, 2] (.padding 4 .nil)) (.frame .raw .nil (.bytes [9] .nil)))) .nil
  have spelled : Spells [] ops tree :=
    .frame .raw (by decide) (.putWord 7 (.frame .shifted (by decide)
      (.put [1, 2] (.align 4 (.nil _))) (.frame .raw (by decide) (.nil _)
        (.put [9] (.nil _))))) (.nil _)
  have bracketed : WellBracketed ops := by decide
  have within : draft.buf.size ≤ draft.buf.limit := by decide
  obtain ⟨content, only, -, laid⟩ := program_lays_content bracketed within
  obtain rfl := (only tree).mp spelled
  obtain ⟨outcomes, buf⟩ := laid (by decide) (by decide)
  exact ⟨bracketed, within, outcomes.trans (by decide), buf.trans (by decide)⟩

end TupleWire
