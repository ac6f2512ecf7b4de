import Mathlib.Data.List.Basic
import TupleWire.Proofs.Frame.Grammar

/-! Two ways to read a row: with its length in front, where the whole frame is checked before
any value is read, and as a message, where the length is gone and the frames are read as they
come. They agree on all bytes, not only on rows that were written. -/
namespace TupleWire

/-- Behind a frame that failed no list of columns is satisfied. -/
theorem Value.ofFrames_failure (payloads : List Payload) (e : Error) (index : Nat)
    (columns : List Column) (values : List Value) :
    ofFrames index (payloads.map .ok ++ [.error e]) columns ≠ .ok values := by
  intro read
  induction payloads generalizing index columns values with
  | nil =>
      cases columns with
      | nil => cases read
      | cons column columns => cases read
  | cons payload payloads ih =>
      cases columns with
      | nil => cases read
      | cons column columns =>
          rw [List.map_cons, List.cons_append, ofFrames] at read
          split at read
          · cases read
          · cases others : ofFrames (index + 1) (payloads.map .ok ++ [.error e]) columns with
            | error e' =>
                rw [others] at read
                cases read
            | ok rest => exact ih (index + 1) columns rest others

namespace Message

theorem wrap_of_le {frame : Bytes} (long : wordSize ≤ frame.length) :
    wrap frame = .ok (rowTag.toBytes ++ frame.drop wordSize) := by
  match frame, long with
  | _ :: _ :: _ :: _ :: rest, _ => rfl

theorem read_wrapped (body : Bytes) :
    read (rowTag.toBytes ++ body) = .ok (.row ⟨body, wordSize, false⟩) := by
  rw [read, wordAt?, List.drop_zero, takeWord?_append]
  rfl

end Message

/-- Where a byte string announces a row frame, its message is a row. What the row shows, the
message shows. What the message shows, the row shows exactly if the zero word that ended the
walk is the last word; else the row is refused for its length. -/
theorem readRow_agrees_with_message (bytes : Bytes) (total : Nat) (columns : List Column)
    (announced : RowFrame.Announced bytes total) :
    ∃ message walk, Message.wrap (bytes.take total) = .ok message ∧
      Message.read message = .ok (.row walk) ∧
      (∀ values, readRow bytes columns = .ok values →
        readColumns walk.drain.1 columns = .ok values) ∧
      ∀ values, readColumns walk.drain.1 columns = .ok values →
        wordAt? message walk.drain.2.pos = some 0 ∧
        (readRow bytes columns = .ok values ↔
          walk.drain.2.pos + wordSize = message.length) ∧
        (walk.drain.2.pos + wordSize ≠ message.length →
          readRow bytes columns =
            .error (.corruptAt .rowLengthDisagrees walk.drain.2.pos)) := by
  have least := announced.least
  have size : (bytes.take total).length = total := List.length_take_of_le announced.present
  let frame : RowFrame := ⟨bytes.take total⟩
  let message : Bytes := Message.rowTag.toBytes ++ (bytes.take total).drop wordSize
  have length : message.length = frame.size := by
    rw [List.length_append, List.length_drop, Word.length_toBytes]
    change _ = (bytes.take total).length
    omega
  have row : readRow bytes columns = frame.check.bind fun frame => frame.values columns := by
    rw [readRow, announced.read]
    rfl
  refine ⟨message, frame.walk, Message.wrap_of_le (by omega), Message.read_wrapped _, ?_⟩
  obtain ⟨body, parts, splits, ends | fails⟩ := frame.walk.drain_splits rfl
  · have checked := RowFrame.check_of_ends ends
    obtain ⟨behind, front, drained⟩ := ends
    have stop : frame.walk.drain.2.pos = wordSize + body.length := by rw [drained]; rfl
    have zero : wordAt? message (wordSize + body.length) = some 0 := by
      have tail : message.drop wordSize = body ++ ((0 : Word).toBytes ++ behind) := front
      rw [wordAt?, ← List.drop_drop, tail, List.drop_left, takeWord?_append]
      rfl
    rw [stop, length]
    by_cases whole : wordSize + body.length + wordSize = frame.size
    · have shown : readRow bytes columns = frame.values columns := by
        rw [row, checked, if_pos whole]
        rfl
      rw [shown]
      exact ⟨fun values read => read, fun values read =>
        ⟨zero, iff_of_true read whole, fun other => absurd whole other⟩⟩
    · have refused : readRow bytes columns =
          .error (.corruptAt .rowLengthDisagrees (wordSize + body.length)) := by
        rw [row, checked, if_neg whole]
        rfl
      have unread : ∀ values, readRow bytes columns ≠ .ok values := by
        intro values read
        rw [refused] at read
        cases read
      exact ⟨fun values read => absurd read (unread values), fun values read =>
        ⟨zero, iff_of_false (unread values) whole, fun other => refused⟩⟩
  · obtain ⟨corruption, refused⟩ := RowFrame.check_of_fails fails
    obtain ⟨corruption', behind, -, drained⟩ := fails
    have unread : ∀ values, readColumns frame.walk.drain.1 columns ≠ .ok values := by
      intro values
      rw [drained]
      exact Value.ofFrames_failure _ _ 0 columns values
    refine ⟨fun values read => ?_, fun values read => absurd read (unread values)⟩
    rw [row, refused] at read
    cases read

/-- A NULL of two zeros, then the zero word, and behind it four bytes that the announced length
still covers. The message shows the NULL, and the row is refused. -/
theorem readRow_agrees_with_message_early_end :
    let bytes : Bytes := [18, 0, 0, 0, 6, 0, 0, 0, 0, 0, 0, 0, 0, 0, 7, 7, 7, 7, 9]
    let columns : List Column := [.leaf [1] [2]]
    RowFrame.Announced bytes 18 ∧
    ∃ message walk, Message.wrap (bytes.take 18) = .ok message ∧
      Message.read message = .ok (.row walk) ∧
      readColumns walk.drain.1 columns = .ok [.null] ∧
      readRow bytes columns = .error (.corruptAt .rowLengthDisagrees 10) := by
  intro bytes columns
  have announced : RowFrame.Announced bytes 18 := ⟨by decide, by decide, by decide⟩
  obtain ⟨message, walk, wrapped, read, -, fromMessage⟩ :=
    readRow_agrees_with_message bytes 18 columns announced
  obtain rfl : Message.rowTag.toBytes ++ (bytes.take 18).drop wordSize = message :=
    Except.ok.inj ((Message.wrap_of_le (by decide)).symm.trans wrapped)
  obtain rfl : Walk.mk ((bytes.take 18).drop wordSize) wordSize false = walk :=
    Message.row.inj (Except.ok.inj ((Message.read_wrapped _).symm.trans read))
  have shown : readColumns (Walk.mk ((bytes.take 18).drop wordSize) wordSize false).drain.1
      columns = .ok [.null] := by decide +kernel
  have stop : (Walk.mk ((bytes.take 18).drop wordSize) wordSize false).drain.2.pos = 10 := by
    decide +kernel
  obtain ⟨-, -, refused⟩ := fromMessage _ shown
  rw [stop] at refused
  exact ⟨announced, _, _, wrapped, read, shown, refused (by decide)⟩

end TupleWire
