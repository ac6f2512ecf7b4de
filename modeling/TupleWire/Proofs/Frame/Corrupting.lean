import TupleWire.Message
import TupleWire.Proofs.Frame.Splitting

/-! Why received bytes are refused: a reader fails for bytes that contradict the format, and
for nothing else. -/
namespace TupleWire

theorem ok_bind {ε α β : Type} (a : α) (f : α → Except ε β) : (.ok a >>= f) = f a := rfl

theorem ok_of_bind {ε α β : Type} {r : Except ε α} {f : α → Except ε β} {b : β}
    (h : r >>= f = .ok b) : ∃ a, r = .ok a ∧ f a = .ok b := by
  cases r with
  | error e => cases h
  | ok a => exact ⟨a, rfl, h⟩

theorem ok_of_map {ε α β : Type} {r : Except ε α} {f : α → β} {b : β} (h : r.map f = .ok b) :
    ∃ a, r = .ok a ∧ b = f a := by
  cases r with
  | error e => cases h
  | ok a =>
      cases h
      exact ⟨a, rfl, rfl⟩

theorem error_of_map {ε α β : Type} {r : Except ε α} {f : α → β} {e : ε}
    (h : r.map f = .error e) : r = .error e := by
  cases r with
  | error e' =>
      cases h
      rfl
  | ok a => cases h

/-- The reading fails, if at all, because the bytes contradict the format. -/
def OnlyCorrupt {α : Type} (r : Except Error α) : Prop :=
  ∀ e, r = .error e → e.kind = .corrupt

namespace OnlyCorrupt

variable {α β : Type}

theorem ok (a : α) : OnlyCorrupt (.ok a) := nofun

theorem error {e : Error} (h : e.kind = .corrupt) : OnlyCorrupt (.error e : Except Error α) := by
  rintro _ ⟨⟩
  exact h

theorem corruptAt (corruption : Corruption) (pos : Nat) :
    OnlyCorrupt (.error (.corruptAt corruption pos) : Except Error α) :=
  error rfl

theorem bind {r : Except Error α} {f : α → Except Error β} (first : OnlyCorrupt r)
    (second : ∀ a, OnlyCorrupt (f a)) : OnlyCorrupt (r >>= f) := by
  cases r with
  | error e => exact error (first e rfl)
  | ok a => exact second a

theorem map {r : Except Error α} (h : OnlyCorrupt r) (f : α → β) : OnlyCorrupt (r.map f) := by
  cases r with
  | error e => exact error (h e rfl)
  | ok a => exact ok (f a)

end OnlyCorrupt

theorem ValueForm.onlyCorrupt_read (form : ValueForm) (payload : Bytes) :
    OnlyCorrupt (form.read payload) := by
  rw [read]
  split
  · exact .corruptAt _ _
  · split
    · exact .corruptAt _ _
    · split
      · exact .corruptAt _ _
      · split
        · exact .corruptAt _ _
        · exact .ok _

theorem onlyCorrupt_readScalar (payload : Bytes) : OnlyCorrupt (readScalar payload) :=
  (ValueForm.scalar.onlyCorrupt_read payload).bind fun _ => .ok _

namespace Object

theorem onlyCorrupt_readCount (frame : Bytes) : OnlyCorrupt (readCount frame) := by
  rw [readCount]
  split
  · exact .corruptAt _ _
  · split
    · exact .corruptAt _ _
    · exact .ok _

theorem onlyCorrupt_lengthsOf (count index : Nat) (keys values : List Word) :
    OnlyCorrupt (lengthsOf count index keys values) := by
  fun_induction lengthsOf count index keys values with
  | case1 => exact .corruptAt _ _
  | case2 => exact .corruptAt _ _
  | case3 index key keys value values keyLength valueLength keyCounted valueCounted ih =>
      exact ih.bind fun _ => .ok _
  | case4 => exact .ok _

theorem onlyCorrupt_readLengths (count : Nat) (bytes : Bytes) :
    OnlyCorrupt (readLengths count bytes) := by
  rw [readLengths]
  split
  · exact .corruptAt _ _
  · exact (onlyCorrupt_lengthsOf _ _ _ _).bind fun _ => .ok _

theorem onlyCorrupt_cut (total : Nat) (lengths : List Nat) (bytes : Bytes) :
    OnlyCorrupt (cut total lengths bytes) := by
  induction lengths generalizing bytes with
  | nil => exact .ok _
  | cons length lengths ih =>
      rw [cut]
      split
      · exact .corruptAt _ _
      · exact (ih _).bind fun _ => .ok _

theorem onlyCorrupt_read (payload : Bytes) : OnlyCorrupt (Object.read payload) := by
  refine (ValueForm.object.onlyCorrupt_read payload).bind fun framed => ?_
  refine (onlyCorrupt_readCount framed.2).bind fun counted => ?_
  refine (onlyCorrupt_readLengths counted.1 counted.2).bind fun measured => ?_
  refine (onlyCorrupt_cut framed.1 measured.1.1 measured.2).bind fun keys => ?_
  refine (onlyCorrupt_cut framed.1 measured.1.2 keys.2).bind fun values => ?_
  simp only
  split
  · exact .ok _
  · exact .corruptAt _ _

end Object

theorem Walk.onlyCorrupt_drain {walk : Walk} (running : walk.done = false) :
    ∀ item ∈ walk.drain.1, OnlyCorrupt item := by
  have read : ∀ parts, ∀ item ∈ found parts, OnlyCorrupt item := by
    intro parts item member
    obtain ⟨payload, -, rfl⟩ := List.mem_map.mp member
    exact .ok _
  obtain ⟨body, parts, -, course⟩ := walk.drain_splits running
  rcases course with ⟨behind, -, drained⟩ | ⟨corruption, behind, -, drained⟩
  · rw [drained]
    exact read parts
  · rw [drained]
    intro item member
    rcases List.mem_append.mp member with frame | failure
    · exact read parts item frame
    · rw [List.mem_singleton.mp failure]
      exact .corruptAt _ _

theorem onlyCorrupt_mapM {α : Type} {items : List (Except Error α)}
    (h : ∀ item ∈ items, OnlyCorrupt item) : OnlyCorrupt (items.mapM id) := by
  induction items with
  | nil => exact .ok _
  | cons item items ih =>
      rw [List.mapM_cons]
      exact (h item (by simp)).bind fun _ =>
        (ih fun later member => h later (List.mem_cons_of_mem _ member)).bind fun _ => .ok _

theorem RowFrame.onlyCorrupt_read (bytes : Bytes) : OnlyCorrupt (RowFrame.read bytes) := by
  rw [read]
  split
  · exact .corruptAt _ _
  · split
    · exact .corruptAt _ _
    · split
      · exact .corruptAt _ _
      · next front _ _ =>
          have drained := onlyCorrupt_mapM ((RowFrame.mk front).walk.onlyCorrupt_drain rfl)
          rw [check]
          simp only
          split
          · next e failed => exact .error (drained e failed)
          · split
            · exact .ok _
            · exact .corruptAt _ _

theorem Column.onlyCorrupt_read (column : Column) (payload : Payload) :
    OnlyCorrupt (column.read payload) := by
  cases payload with
  | none => exact .ok _
  | some bytes =>
      cases column with
      | rowKey => exact (onlyCorrupt_readScalar bytes).map _
      | family name => exact (Object.onlyCorrupt_read bytes).map _
      | leaf name qualifier => exact .error rfl

/-- Frames that are themselves refused only as corrupt are never refused for another reason,
whatever the columns are. -/
theorem Value.onlyCorrupt_ofFrames (index : Nat) {frames : List (Except Error Payload)}
    (h : ∀ frame ∈ frames, OnlyCorrupt frame) (columns : List Column) :
    OnlyCorrupt (ofFrames index frames columns) := by
  induction columns generalizing index frames with
  | nil =>
      match frames with
      | [] => exact .ok _
      | .ok _ :: _ => exact .error rfl
      | .error e :: _ =>
          have refused : OnlyCorrupt (.error e) := h (.error e) (by simp)
          exact .error (refused e rfl)
  | cons column columns ih =>
      match frames with
      | [] => exact .error rfl
      | frame :: frames =>
          have first : OnlyCorrupt (frame.bind column.read) :=
            (h frame (by simp)).bind column.onlyCorrupt_read
          have others := ih (index + 1) fun later member => h later (List.mem_cons_of_mem _ member)
          rw [ofFrames]
          split
          · next e failed => exact .error (first e failed)
          · exact others.map _

theorem onlyCorrupt_readRow (bytes : Bytes) (columns : List Column) :
    OnlyCorrupt (readRow bytes columns) :=
  (RowFrame.onlyCorrupt_read bytes).bind fun frame =>
    Value.onlyCorrupt_ofFrames 0 (frame.walk.onlyCorrupt_drain rfl) columns

theorem Message.running_of_read {bytes : Bytes} {walk : Walk}
    (h : Message.read bytes = .ok (.row walk)) : walk.done = false := by
  rw [read] at h
  split at h
  · cases h
  · split at h
    · cases h
      rfl
    · split at h
      · cases h
      · cases h

theorem Message.onlyCorrupt_read (bytes : Bytes) : OnlyCorrupt (Message.read bytes) := by
  rw [read]
  split
  · exact .error rfl
  · split
    · exact .ok _
    · split
      · exact .ok _
      · exact .error rfl

/-- What a receiver makes of a message: the values of a row, or none at the end. -/
def Message.decode (list : List Column) (bytes : Bytes) : Except Error (Option (List Value)) :=
  match Message.read bytes with
  | .error e => .error e
  | .ok .ending => .ok none
  | .ok (.row walk) => (readColumns walk.drain.1 list).map some

theorem Message.onlyCorrupt_decode (columns : List Column) (bytes : Bytes) :
    OnlyCorrupt (decode columns bytes) := by
  rw [decode]
  split
  · next e failed => exact .error (Message.onlyCorrupt_read bytes e failed)
  · exact .ok _
  · next walk received =>
      have drained := walk.onlyCorrupt_drain (running_of_read received)
      exact (Value.onlyCorrupt_ofFrames 0 drained columns).map _

end TupleWire
