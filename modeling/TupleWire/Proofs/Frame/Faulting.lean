import Mathlib.Data.List.Forall2
import TupleWire.Proofs.Frame.Corrupting

/-! Frames under columns, place by place. A frame is read, or there is a fault at its place; the
first fault is the answer, and what stands behind it is not looked at. -/
namespace TupleWire

/-- What a column frame carries, or why it could not be cut out. -/
abbrev Found := Except Error Payload

/-- The frame is read under the column, and this is its value. -/
inductive Column.Gives : Column → Found → Value → Prop
  | null (column : Column) : Gives column (.ok none) .null
  | scalar {payload data : Bytes} (read : readScalar payload = .ok data) :
      Gives .rowKey (.ok (some payload)) (.scalar data)
  | object {name payload : Bytes} {object : Object} (read : Object.read payload = .ok object) :
      Gives (.family name) (.ok (some payload)) (.object object)

/-- The frame has failed already, or its payload cannot be read under the column. -/
inductive Column.Refuses : Column → Found → Error → Prop
  | failed (column : Column) (e : Error) : Refuses column (.error e) e
  | scalar {payload : Bytes} {e : Error} (read : readScalar payload = .error e) :
      Refuses .rowKey (.ok (some payload)) e
  | object {name payload : Bytes} {e : Error} (read : Object.read payload = .error e) :
      Refuses (.family name) (.ok (some payload)) e
  | leaf (name qualifier payload : Bytes) :
      Refuses (.leaf name qualifier) (.ok (some payload)) { fault := .corrupt .leafPayload }

namespace Column

variable {column : Column} {frame : Found} {value : Value} {e : Error}

theorem gives_iff : column.Gives frame value ↔ frame.bind column.read = .ok value := by
  constructor
  · rintro (_ | read | read)
    · rfl
    · exact congrArg (Except.map Value.scalar) read
    · exact congrArg (Except.map Value.object) read
  · intro h
    rcases frame with e | _ | payload
    · cases h
    · cases h
      exact .null column
    · cases column with
      | rowKey =>
          obtain ⟨data, read, rfl⟩ := ok_of_map h
          exact .scalar read
      | family name =>
          obtain ⟨object, read, rfl⟩ := ok_of_map h
          exact .object read
      | leaf name qualifier => cases h

theorem refuses_iff : column.Refuses frame e ↔ frame.bind column.read = .error e := by
  constructor
  · rintro (_ | read | read | _)
    · rfl
    · exact congrArg (Except.map Value.scalar) read
    · exact congrArg (Except.map Value.object) read
    · rfl
  · intro h
    rcases frame with e | _ | payload
    · cases h
      exact .failed column e
    · cases h
    · cases column with
      | rowKey => exact .scalar (error_of_map h)
      | family name => exact .object (error_of_map h)
      | leaf name qualifier =>
          cases h
          exact .leaf name qualifier payload

theorem Refuses.corrupt {payload : Payload} (refused : column.Refuses (.ok payload) e) :
    e.kind = .corrupt :=
  column.onlyCorrupt_read payload e (refuses_iff.mp refused)

end Column

namespace Value

/-- The fault at the place number `index`, where a frame and a column stand or one of them or
both are missing. -/
inductive Fault (index : Nat) : Option Found → Option Column → Error → Prop
  | missing (column : Column) :
      Fault index none (some column) { fault := .corrupt .framesMissing }
  | refused {column : Column} {frame : Found} {e : Error} (refused : column.Refuses frame e) :
      Fault index (some frame) (some column) (e.atColumn index)
  | surplus (payload : Payload) :
      Fault index (some (.ok payload)) none { fault := .corrupt .framesLeft }
  | surplusFailed (e : Error) : Fault index (some (.error e)) none e

/-- At the first `count` places a frame stands and is read. -/
def ReadTo (frames : List Found) (columns : List Column) (count : Nat) : Prop :=
  ∀ pos < count, ∃ frame column value,
    frames[pos]? = some frame ∧ columns[pos]? = some column ∧ column.Gives frame value

variable {frame : Found} {column : Column} {frames : List Found} {columns : List Column}

theorem readTo_zero : ReadTo frames columns 0 := nofun

theorem readTo_succ_iff {count : Nat} :
    ReadTo (frame :: frames) (column :: columns) (count + 1) ↔
      (∃ value, column.Gives frame value) ∧ ReadTo frames columns count := by
  constructor
  · intro h
    refine ⟨?_, fun pos below => h (pos + 1) (Nat.succ_lt_succ below)⟩
    obtain ⟨_, _, value, ⟨⟩, ⟨⟩, gives⟩ := h 0 (Nat.succ_pos count)
    exact ⟨value, gives⟩
  · rintro ⟨⟨value, gives⟩, others⟩ pos below
    cases pos with
    | zero => exact ⟨frame, column, value, rfl, rfl, gives⟩
    | succ pos => exact others pos (Nat.lt_of_succ_lt_succ below)

/-- Reading succeeds exactly if a frame stands at the place of every column, and no more. -/
theorem ofFrames_eq_ok_iff (index : Nat) {values : List Value} :
    ofFrames index frames columns = .ok values ↔
      frames.length = columns.length ∧
        List.Forall₂ (fun pair value => pair.1.Gives pair.2 value) (columns.zip frames) values := by
  induction columns generalizing index frames values with
  | nil =>
      match frames with
      | [] =>
          constructor
          · rintro ⟨⟩
            exact ⟨rfl, .nil⟩
          · rintro ⟨-, ⟨⟩⟩
            rfl
      | .ok _ :: _ => exact ⟨nofun, fun h => by cases h.1⟩
      | .error _ :: _ => exact ⟨nofun, fun h => by cases h.1⟩
  | cons column columns ih =>
      match frames with
      | [] => exact ⟨nofun, fun h => by cases h.1⟩
      | frame :: frames =>
          rw [ofFrames]
          constructor
          · intro h
            split at h
            · cases h
            · next value read =>
                obtain ⟨others, rest, rfl⟩ := ok_of_map h
                obtain ⟨length, each⟩ := (ih (index + 1)).mp rest
                exact ⟨congrArg (· + 1) length, .cons (Column.gives_iff.mpr read) each⟩
          · rintro ⟨length, each⟩
            cases each with
            | cons gives each =>
                rw [Column.gives_iff.mp gives]
                have rest := (ih (index + 1)).mpr ⟨Nat.succ_inj.mp length, each⟩
                simp only
                rw [rest]
                rfl

theorem ofFrames_of_fault {index : Nat} {e : Error}
    (fault : Fault index frames[0]? columns[0]? e) : ofFrames index frames columns = .error e := by
  match frames, columns, fault with
  | [], _ :: _, .missing _ => rfl
  | _ :: _, _ :: _, .refused refused => rw [ofFrames, Column.refuses_iff.mp refused]
  | _ :: _, [], .surplus _ => rfl
  | _ :: _, [], .surplusFailed _ => rfl

theorem ofFrames_of_readTo {index pos : Nat} {e : Error} (read : ReadTo frames columns pos)
    (fault : Fault (index + pos) frames[pos]? columns[pos]? e) :
    ofFrames index frames columns = .error e := by
  induction pos generalizing index frames columns with
  | zero => exact ofFrames_of_fault fault
  | succ pos ih =>
      obtain ⟨_, _, _, here, there, -⟩ := read 0 (Nat.succ_pos pos)
      match frames, columns, here, there with
      | frame :: frames, column :: columns, _, _ =>
          obtain ⟨⟨value, gives⟩, others⟩ := readTo_succ_iff.mp read
          rw [ofFrames, Column.gives_iff.mp gives]
          simp only
          rw [ih others (by rwa [Nat.add_assoc, Nat.add_comm 1])]
          rfl

/-- Reading fails exactly with the fault at the first place that has one. -/
theorem ofFrames_eq_error_iff (index : Nat) {e : Error} :
    ofFrames index frames columns = .error e ↔
      ∃ pos, ReadTo frames columns pos ∧ Fault (index + pos) frames[pos]? columns[pos]? e := by
  refine ⟨fun failed => ?_, fun ⟨pos, read, fault⟩ => ofFrames_of_readTo read fault⟩
  induction columns generalizing index frames with
  | nil =>
      match frames, failed with
      | .ok payload :: frames, failed =>
          cases failed
          exact ⟨0, readTo_zero, .surplus payload⟩
      | .error e :: frames, failed =>
          cases failed
          exact ⟨0, readTo_zero, .surplusFailed e⟩
  | cons column columns ih =>
      match frames, failed with
      | [], failed =>
          cases failed
          exact ⟨0, readTo_zero, .missing column⟩
      | frame :: frames, failed =>
          rw [ofFrames] at failed
          split at failed
          · next e' refused =>
              cases failed
              exact ⟨0, readTo_zero, .refused (Column.refuses_iff.mpr refused)⟩
          · next value read =>
              obtain ⟨pos, others, fault⟩ := ih (index + 1) (error_of_map failed)
              refine ⟨pos + 1, readTo_succ_iff.mpr ⟨⟨value, Column.gives_iff.mpr read⟩, others⟩, ?_⟩
              rwa [Nat.add_assoc, Nat.add_comm 1] at fault

end Value

/-- Frames are read under columns place by place. The reading succeeds exactly if a frame stands at
the place of every column, no more, and each is read; the values are those of the places. Else the
first place that has a fault decides: a frame that failed or cannot be read is told with the
column, a missing or a surplus one without, and a payload is never refused but as corrupt. The
frames behind the fault have no part in it. -/
theorem readColumns_first_fault (frames : List Found) (columns : List Column) :
    (∀ values, readColumns frames columns = .ok values ↔
      frames.length = columns.length ∧
        List.Forall₂ (fun pair value => pair.1.Gives pair.2 value) (columns.zip frames) values) ∧
    (∀ e, readColumns frames columns = .error e ↔
      ∃ pos, Value.ReadTo frames columns pos ∧ Value.Fault pos frames[pos]? columns[pos]? e) ∧
    (∀ (column : Column) payload e, column.Refuses (.ok payload) e → e.kind = .corrupt) ∧
    ∀ pos e, Value.ReadTo frames columns pos → Value.Fault pos frames[pos]? columns[pos]? e →
      pos < frames.length → ∀ later,
        readColumns (frames.take (pos + 1) ++ later) columns = .error e := by
  have fails : ∀ (frames : List Found) e, readColumns frames columns = .error e ↔ ∃ pos,
      Value.ReadTo frames columns pos ∧ Value.Fault pos frames[pos]? columns[pos]? e := by
    intro frames e
    simp only [readColumns, Value.ofFrames_eq_error_iff, Nat.zero_add]
  refine ⟨fun values => by rw [readColumns, Value.ofFrames_eq_ok_iff], fails frames,
    fun column payload e => Column.Refuses.corrupt, fun pos e read fault present later => ?_⟩
  have same : ∀ i < pos + 1, (frames.take (pos + 1) ++ later)[i]? = frames[i]? := by
    intro i below
    rw [List.getElem?_append_left (by rw [List.length_take]; omega), List.getElem?_take_of_lt below]
  refine (fails _ e).mpr ⟨pos, fun earlier below => ?_, ?_⟩
  · rw [same earlier (Nat.lt_succ_of_lt below)]
    exact read earlier below
  · rw [same pos (Nat.lt_succ_self pos)]
    exact fault

end TupleWire
