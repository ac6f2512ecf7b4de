import Mathlib.Data.List.Forall2
import TupleWire.Proofs.Frame.Grammar

/-! What reading overlooks. A column frame is longer than its value frame by padding, which a
writer makes of zeros. A reader asks for zeros where a column has no room for a value frame at
all; behind a scalar or an object anything may stand. -/
namespace TupleWire

namespace Payload

/-- How long the value frame at the front is by its first word; nothing where there is no such
word. -/
def declared (bytes : Bytes) : Nat := ((wordAt? bytes 0).bind Word.valueLength?).getD 0

/-- What stands behind the value frame, up to the end of the column frame. -/
def padding (bytes : Bytes) : Bytes := bytes.drop (declared bytes)

/-- The same value frame, and as much padding, of any bytes. -/
structure Repadded (bytes other : Bytes) : Prop where
  length : other.length = bytes.length
  front : other.take (declared bytes) = bytes.take (declared bytes)

theorem padding_of_short {bytes : Bytes} (short : bytes.length < wordSize) :
    padding bytes = bytes := by
  cases word : takeWord? bytes with
  | none => simp [padding, declared, wordAt?, word]
  | some found =>
      have length := congrArg List.length (takeWord?_eq_some_iff.mp word)
      rw [List.length_append, Word.length_toBytes] at length
      omega

theorem clean_iff {bytes : Bytes} :
    Clean bytes ↔ (bytes.length < wordSize → ∀ b ∈ padding bytes, b = 0) := by
  unfold Clean
  constructor
  · intro clean short
    rw [padding_of_short short]
    exact clean short
  · intro zeros short
    have all := zeros short
    rwa [padding_of_short short] at all

end Payload

namespace ValueForm

theorem read_repadded {form : ValueForm} {payload other body : Bytes} {total : Nat}
    (large : wordSize ≤ form.least) (same : Payload.Repadded payload other)
    (h : form.read payload = .ok (total, body)) : form.read other = .ok (total, body) := by
  obtain ⟨header, rest, rfl, counted, least, full⟩ := read_eq_ok_iff.mp h
  have declared : Payload.declared (header.toBytes ++ (body ++ rest)) = total := by
    rw [Payload.declared, wordAt?, List.drop_zero, takeWord?_append]
    simp [counted]
  have length : total = (header.toBytes ++ body).length := by
    rw [List.length_append, Word.length_toBytes]
    omega
  have front := same.front
  rw [declared, ← List.append_assoc, length, List.take_left] at front
  refine read_eq_ok_iff.mpr ⟨header, other.drop total, ?_, counted, least, full⟩
  rw [← List.append_assoc, ← front, ← length, List.take_append_drop]

end ValueForm

theorem readScalar_repadded {payload other data : Bytes} (same : Payload.Repadded payload other)
    (h : readScalar payload = .ok data) : readScalar other = .ok data := by
  obtain ⟨⟨total, body⟩, framed, result⟩ := ok_of_bind h
  rw [readScalar, ValueForm.read_repadded (Nat.le_refl _) same framed]
  exact result

theorem Object.read_repadded {payload other : Bytes} {object : Object}
    (same : Payload.Repadded payload other) (h : Object.read payload = .ok object) :
    Object.read other = .ok object := by
  obtain ⟨⟨total, frame⟩, framed, result⟩ := ok_of_bind h
  rw [Object.read, ValueForm.read_repadded (by decide) same framed]
  exact result

/-- A value does not tell what stands behind it. -/
theorem Column.read_repadded {column : Column} {part other : Bytes} {value : Value}
    (same : Payload.Repadded part other) (h : column.read (Payload.ofBytes part) = .ok value) :
    column.read (Payload.ofBytes other) = .ok value := by
  by_cases long : wordSize ≤ part.length
  case neg =>
    rw [Payload.ofBytes, if_neg long] at h
    rwa [Payload.ofBytes, same.length, if_neg long]
  rw [Payload.ofBytes, if_pos long] at h
  rw [Payload.ofBytes, same.length, if_pos long]
  cases column with
  | rowKey =>
      obtain ⟨data, found, rfl⟩ := ok_of_map h
      simp only [read, readScalar_repadded same found]
      rfl
  | family name =>
      obtain ⟨object, found, rfl⟩ := ok_of_map h
      simp only [read, Object.read_repadded same found]
      rfl
  | leaf family qualifier => cases h

namespace RowFrame

/-- The row frame that is made of column frames, and of nothing else. -/
def compose (parts : List Bytes) : Bytes :=
  Layout.frame .raw (parts.flatMap (Layout.frame .raw) ++ (0 : Word).toBytes)

/-- The column frames show these values under these columns, one for each. -/
inductive Shown : List Column → List Bytes → List Value → Prop
  | nil : Shown [] [] []
  | cons {column : Column} {part : Bytes} {value : Value} {columns : List Column}
      {parts : List Bytes} {values : List Value}
      (read : column.read (Payload.ofBytes part) = .ok value)
      (others : Shown columns parts values) :
      Shown (column :: columns) (part :: parts) (value :: values)

/-- The bytes begin with a row frame that is made of these column frames and shows these values,
whatever its padding is. -/
structure Made (bytes : Bytes) (columns : List Column) (parts : List Bytes)
    (values : List Value) : Prop where
  front : compose parts <+: bytes
  fits : LengthForm.raw.Fits (compose parts).length
  shown : Shown columns parts values

variable {bytes rest rest' : Bytes} {columns : List Column} {parts parts' : List Bytes}
  {values values' : List Value}

theorem length_compose (parts : List Bytes) :
    (compose parts).length =
      wordSize + (parts.flatMap (Layout.frame .raw)).length + wordSize := by
  rw [compose, Layout.length_frame, List.length_append, Word.length_toBytes, Nat.add_assoc]

theorem fits_of_mem {part : Bytes} (fits : LengthForm.raw.Fits (compose parts).length)
    (member : part ∈ parts) : LengthForm.raw.Fits (Layout.frame .raw part).length := by
  obtain ⟨front, back, rfl⟩ := List.append_of_mem member
  simp only [length_compose, List.flatMap_append, List.flatMap_cons, List.length_append] at fits
  simp only [LengthForm.Fits] at fits ⊢
  omega

theorem frame_inj {part part' : Bytes}
    (fits : LengthForm.raw.Fits (Layout.frame .raw part).length)
    (fits' : LengthForm.raw.Fits (Layout.frame .raw part').length)
    (same : Layout.frame .raw part ++ rest = Layout.frame .raw part' ++ rest') :
    part' = part ∧ rest' = rest := by
  have counted := wordAt?_frame fits rest
  rw [same, wordAt?_frame fits' rest', Option.some.injEq] at counted
  obtain ⟨frames, rests⟩ := List.append_inj same counted.symm
  exact ⟨(List.append_inj_right frames rfl).symm, rests.symm⟩

theorem frame_ne_zero {part : Bytes}
    (fits : LengthForm.raw.Fits (Layout.frame .raw part).length) :
    Layout.frame .raw part ++ rest ≠ (0 : Word).toBytes ++ rest' := by
  intro same
  have counted := wordAt?_frame fits rest
  have zero : (wordAt? ((0 : Word).toBytes ++ rest') 0).bind Word.length? = some 0 := rfl
  rw [same, zero, Layout.length_frame, Option.some.injEq] at counted
  simp only [wordSize] at counted
  omega

theorem frames_inj
    (fits : ∀ part ∈ parts, LengthForm.raw.Fits (Layout.frame .raw part).length)
    (fits' : ∀ part ∈ parts', LengthForm.raw.Fits (Layout.frame .raw part).length)
    (same : parts.flatMap (Layout.frame .raw) ++ ((0 : Word).toBytes ++ rest) =
      parts'.flatMap (Layout.frame .raw) ++ ((0 : Word).toBytes ++ rest')) : parts' = parts := by
  induction parts generalizing parts' with
  | nil =>
      cases parts' with
      | nil => rfl
      | cons part' parts' =>
          rw [List.flatMap_cons, List.append_assoc] at same
          exact absurd same.symm (frame_ne_zero (fits' part' List.mem_cons_self))
  | cons part parts ih =>
      cases parts' with
      | nil =>
          rw [List.flatMap_cons, List.append_assoc] at same
          exact absurd same (frame_ne_zero (fits part List.mem_cons_self))
      | cons part' parts' =>
          simp only [List.flatMap_cons, List.append_assoc] at same
          obtain ⟨rfl, others⟩ := frame_inj (fits part List.mem_cons_self)
            (fits' part' List.mem_cons_self) same
          rw [ih (fun part member => fits part (List.mem_cons_of_mem _ member))
            (fun part member => fits' part (List.mem_cons_of_mem _ member)) others.symm]

/-- A string is split into column frames exactly if it is made of frames that are clean. -/
theorem splits_iff {body : Bytes} : Splits body parts ↔
    body = parts.flatMap (Layout.frame .raw) ∧ ∀ part ∈ parts,
      Payload.Clean part ∧ LengthForm.raw.Fits (Layout.frame .raw part).length := by
  constructor
  · intro h
    induction h with
    | nil => exact ⟨rfl, nofun⟩
    | @cons w part rest parts counted clean others ih =>
        obtain ⟨rfl, each⟩ := ih
        obtain ⟨fits, rfl⟩ := Word.signed_eq_natCast_iff.mp counted
        refine ⟨rfl, List.forall_mem_cons.mpr ⟨⟨clean, ?_⟩, each⟩⟩
        rwa [Layout.length_frame]
  · rintro ⟨rfl, each⟩
    induction parts with
    | nil => exact .nil
    | cons part parts ih =>
        obtain ⟨⟨clean, fits⟩, others⟩ := List.forall_mem_cons.mp each
        rw [Layout.length_frame] at fits
        exact .cons (Word.signed_eq_natCast_iff.mpr ⟨fits, rfl⟩) clean (ih others)

theorem ofFrames_found {index : Nat} :
    Value.ofFrames index (Walk.found parts) columns = .ok values ↔
      Shown columns parts values := by
  induction parts generalizing index columns values with
  | nil =>
      cases columns with
      | nil =>
          constructor
          · rintro ⟨⟩
            exact .nil
          · rintro ⟨⟩
            rfl
      | cons column columns => exact ⟨nofun, nofun⟩
  | cons part parts ih =>
      cases columns with
      | nil => exact ⟨nofun, nofun⟩
      | cons column columns =>
          simp only [Walk.found, List.map_cons, Value.ofFrames, Except.bind] at ih ⊢
          constructor
          · intro h
            split at h
            · cases h
            · next value read =>
                obtain ⟨others, shown, rfl⟩ := ok_of_map h
                exact .cons read (ih.mp shown)
          · rintro (_ | ⟨read, others⟩)
            simp only [read, ih.mpr others]
            rfl

theorem step_dirty {part : Bytes}
    (fits : LengthForm.raw.Fits (Layout.frame .raw part).length)
    (short : part.length < wordSize) (dirty : ∃ b ∈ part, b ≠ 0) (rest : Bytes) (pos : Nat) :
    Walk.step ⟨Layout.frame .raw part ++ rest, pos, false⟩ =
      .error (.corruptAt .columnPaddingDirty pos) := by
  rw [Layout.length_frame] at fits
  have some : part.any (· ≠ 0) = true := by simpa using dirty
  have counted : ¬ wordSize + part.length = 0 := by
    simp only [wordSize]
    omega
  rw [Layout.frame, List.append_assoc, Walk.step_of_length (LengthForm.length?_stored fits),
    if_neg counted, if_neg (Nat.not_lt.mpr (Nat.le_add_right _ _)), Nat.add_sub_cancel_left,
    takeBytes?_append]
  simp only
  rw [if_neg (Nat.not_le.mpr short), if_pos some]

theorem drain_dirty {front : List Bytes} {part : Bytes}
    (clean : ∀ part ∈ front, Payload.Clean part)
    (fits : ∀ part ∈ front, LengthForm.raw.Fits (Layout.frame .raw part).length)
    (fit : LengthForm.raw.Fits (Layout.frame .raw part).length)
    (short : part.length < wordSize) (dirty : ∃ b ∈ part, b ≠ 0) (rest : Bytes) (pos : Nat) :
    (Walk.drain ⟨front.flatMap (Layout.frame .raw) ++ (Layout.frame .raw part ++ rest), pos,
        false⟩).1 =
      Walk.found front ++ [.error (.corruptAt .columnPaddingDirty
        (pos + (front.flatMap (Layout.frame .raw)).length))] := by
  induction front generalizing pos with
  | nil =>
      have failed := Walk.drain_of_failure rfl (step_dirty fit short dirty rest pos)
      exact congrArg Prod.fst failed
  | cons first front ih =>
      obtain ⟨firstClean, clean⟩ := List.forall_mem_cons.mp clean
      obtain ⟨firstFits, fits⟩ := List.forall_mem_cons.mp fits
      rw [List.flatMap_cons, List.append_assoc,
        Walk.drain_of_frame rfl (Walk.step_frame firstClean firstFits _ pos false),
        ih clean fits, List.length_append, Nat.add_assoc]
      rfl

theorem walk_compose (parts : List Bytes) :
    walk ⟨compose parts⟩ =
      ⟨parts.flatMap (Layout.frame .raw) ++ (0 : Word).toBytes, wordSize, false⟩ := rfl

theorem Begins.composed {total : Nat} (h : Begins bytes total parts) :
    bytes.take total = compose parts ∧ LengthForm.raw.Fits (compose parts).length ∧
      ∀ part ∈ parts, Payload.Clean part := by
  obtain ⟨body, each⟩ := splits_iff.mp h.split
  obtain ⟨w, first, counted⟩ := h.word
  obtain ⟨fits, rfl⟩ := Word.signed_eq_natCast_iff.mp counted
  have behind := h.behind
  have least := h.least
  have word : (bytes.take total).take wordSize = (Word.ofNat total).toBytes := by
    obtain ⟨⟨w, rest⟩, taken, rfl⟩ := Option.map_eq_some_iff.mp first
    rw [List.drop_zero, takeWord?_eq_some_iff] at taken
    rw [List.take_take, Nat.min_eq_left (by omega), taken]
    rfl
  have size : wordSize + (parts.flatMap (Layout.frame .raw) ++ (0 : Word).toBytes).length =
      total := by
    have length := congrArg List.length behind
    rw [List.length_drop, List.length_take_of_le h.present, body] at length
    omega
  have whole : bytes.take total = compose parts :=
    calc bytes.take total = (bytes.take total).take wordSize ++ (bytes.take total).drop wordSize :=
          (List.take_append_drop _ _).symm
      _ = (Word.ofNat total).toBytes ++
            (parts.flatMap (Layout.frame .raw) ++ (0 : Word).toBytes) := by rw [word, behind, body]
      _ = compose parts := by
          rw [compose, Layout.frame, size]
          rfl
  rw [compose, Layout.length_frame, size]
  exact ⟨whole, fits, fun part member => (each part member).1⟩

theorem Shown.repad (h : Shown columns parts values)
    (same : List.Forall₂ Payload.Repadded parts parts') : Shown columns parts' values := by
  induction h generalizing parts' with
  | nil =>
      cases same
      exact .nil
  | cons read others ih =>
      obtain _ | ⟨first, rest⟩ := same
      exact .cons (Column.read_repadded first read) (ih rest)

theorem length_frames (same : List.Forall₂ Payload.Repadded parts parts') :
    (parts'.flatMap (Layout.frame .raw)).length = (parts.flatMap (Layout.frame .raw)).length := by
  induction same with
  | nil => rfl
  | cons first rest ih =>
      simp only [List.flatMap_cons, List.length_append, Layout.length_frame, first.length, ih]

namespace Made

theorem announced (h : Made bytes columns parts values) :
    Announced bytes (compose parts).length := by
  obtain ⟨rest, rfl⟩ := h.front
  obtain ⟨w, first, length⟩ := Option.bind_eq_some_iff.mp (wordAt?_frame h.fits rest)
  refine ⟨?_, ?_, ?_⟩
  · rw [compose, first, Option.map_some, Word.length?_eq_some_iff.mp length]
  · rw [length_compose]
    omega
  · rw [List.length_append]
    exact Nat.le_add_right _ _

theorem read (h : Made bytes columns parts values) :
    RowFrame.read bytes = check ⟨compose parts⟩ := by
  rw [h.announced.read, ← List.prefix_iff_eq_take.mp h.front]

theorem unique (h : Made bytes columns parts values) (h' : Made bytes columns parts' values') :
    parts' = parts ∧ values' = values := by
  obtain ⟨rest, rfl⟩ := h.front
  obtain ⟨rest', same⟩ := h'.front
  obtain ⟨bodies, -⟩ := frame_inj h.fits h'.fits same.symm
  rw [← List.append_nil (0 : Word).toBytes] at bodies
  obtain rfl := frames_inj (fun _ member => fits_of_mem h.fits member)
    (fun _ member => fits_of_mem h'.fits member) bodies.symm
  have shown : Value.ofFrames 0 _ _ = .ok values := ofFrames_found.mpr h.shown
  rw [ofFrames_found.mpr h'.shown] at shown
  cases shown
  exact ⟨rfl, rfl⟩

theorem of_read (h : readRow bytes columns = .ok values) :
    ∃ parts, Made bytes columns parts values ∧ ∀ part ∈ parts, Payload.Clean part := by
  obtain ⟨frame, read, shown⟩ := ok_of_bind h
  obtain ⟨parts, begins⟩ := begins_of_read read
  obtain ⟨whole, fits, clean⟩ := begins.composed
  obtain ⟨behind, -, drained⟩ := begins.ends
  obtain ⟨-, same⟩ := announced_of_read read
  rw [RowFrame.values, payloads, same, drained] at shown
  exact ⟨parts, ⟨whole ▸ List.take_prefix _ _, fits, ofFrames_found.mp shown⟩, clean⟩

theorem accepted (h : Made bytes columns parts values)
    (clean : ∀ part ∈ parts, Payload.Clean part) : readRow bytes columns = .ok values := by
  have splits : Splits (parts.flatMap (Layout.frame .raw)) parts :=
    splits_iff.mpr ⟨rfl, fun part member => ⟨clean part member, fits_of_mem h.fits member⟩⟩
  have ends := Walk.ends_of_splits splits [] wordSize
  rw [List.append_nil, ← walk_compose] at ends
  have size : size ⟨compose parts⟩ = _ := length_compose parts
  have checked := check_of_ends ends
  rw [size, if_pos rfl] at checked
  obtain ⟨behind, -, drained⟩ := ends
  rw [readRow, h.read, checked, ok_bind, RowFrame.values, payloads, drained]
  exact ofFrames_found.mpr h.shown

theorem read_iff (h : Made bytes columns parts values) :
    readRow bytes columns = .ok values ↔ ∀ part ∈ parts, Payload.Clean part := by
  constructor
  · intro read
    obtain ⟨parts', made, clean⟩ := of_read read
    obtain ⟨rfl, -⟩ := h.unique made
    exact clean
  · exact h.accepted

theorem refused (h : Made bytes columns parts values) {front back : List Bytes} {part : Bytes}
    (split : parts = front ++ part :: back) (clean : ∀ part ∈ front, Payload.Clean part)
    (short : part.length < wordSize) (dirty : ∃ b ∈ part, b ≠ 0) :
    readRow bytes columns = .error (.corruptAt .columnPaddingDirty
      (wordSize + (front.flatMap (Layout.frame .raw)).length)) := by
  have fits : ∀ part ∈ parts, LengthForm.raw.Fits (Layout.frame .raw part).length :=
    fun _ member => fits_of_mem h.fits member
  have read := h.read
  have walked := walk_compose parts
  rw [split, List.flatMap_append, List.flatMap_cons, List.append_assoc, List.append_assoc] at walked
  rw [split, List.forall_mem_append, List.forall_mem_cons] at fits
  have drained := drain_dirty clean fits.1 fits.2.1 short dirty
    (back.flatMap (Layout.frame .raw) ++ (0 : Word).toBytes) wordSize
  rw [← walked] at drained
  rw [split, check] at read
  simp only [drained] at read
  rw [Walk.found, mapM_id_error] at read
  rw [readRow, read]
  rfl

theorem repad (h : Made bytes columns parts values)
    (same : List.Forall₂ Payload.Repadded parts parts') (rest : Bytes) :
    Made (compose parts' ++ rest) columns parts' values := by
  refine ⟨List.prefix_append _ _, ?_, h.shown.repad same⟩
  rw [length_compose, length_frames same, ← length_compose]
  exact h.fits

end Made

end RowFrame

/-- What reading asks of padding, and what it overlooks. Whatever is read begins with a row frame
whose column frames show the values. Such a frame is read exactly if those of its column frames
that have no room for a value frame hold zeros; else the first that does not is told. Behind a
scalar or an object its column frame can hold anything, and the values are the same. -/
theorem readRow_overlooks_padding (bytes : Bytes) (columns : List Column) :
    (∀ values, readRow bytes columns = .ok values →
      ∃ parts, RowFrame.Made bytes columns parts values) ∧
    ∀ parts values, RowFrame.Made bytes columns parts values →
      (∀ parts' values', RowFrame.Made bytes columns parts' values' →
        parts' = parts ∧ values' = values) ∧
      (readRow bytes columns = .ok values ↔
        ∀ part ∈ parts, part.length < wordSize → ∀ b ∈ Payload.padding part, b = 0) ∧
      (∀ front part back, parts = front ++ part :: back →
        (∀ part ∈ front, part.length < wordSize → ∀ b ∈ Payload.padding part, b = 0) →
        part.length < wordSize → (∃ b ∈ Payload.padding part, b ≠ 0) →
          readRow bytes columns = .error (.corruptAt .columnPaddingDirty
            (wordSize + (front.flatMap (Layout.frame .raw)).length))) ∧
      ∀ parts' behind, List.Forall₂ Payload.Repadded parts parts' →
        (readRow (RowFrame.compose parts' ++ behind) columns = .ok values ↔
          ∀ part ∈ parts', part.length < wordSize → ∀ b ∈ Payload.padding part, b = 0) := by
  refine ⟨?_, fun parts values made => ⟨?_, ?_, ?_, ?_⟩⟩
  · intro values read
    obtain ⟨parts, made, -⟩ := RowFrame.Made.of_read read
    exact ⟨parts, made⟩
  · intro parts' values' made'
    exact made.unique made'
  · simp only [← Payload.clean_iff]
    exact made.read_iff
  · intro front part back split clean short dirty
    simp only [← Payload.clean_iff] at clean
    rw [Payload.padding_of_short short] at dirty
    exact made.refused split clean short dirty
  · intro parts' behind same
    simp only [← Payload.clean_iff]
    exact (made.repad same behind).read_iff

/-- A scalar of one byte, and behind it in its column frame a byte that is not zero. It is read
as if that byte were zero. -/
theorem readRow_of_dirty_scalar :
    readRow [20, 0, 0, 0, 12, 0, 0, 0, 20, 0, 0, 0, 107, 1, 0, 0, 0, 0, 0, 0] [.rowKey] =
        .ok [.scalar [107]] ∧
      ¬ ∀ parts values, RowFrame.Made
        [20, 0, 0, 0, 12, 0, 0, 0, 20, 0, 0, 0, 107, 1, 0, 0, 0, 0, 0, 0] [.rowKey] parts values →
          ∀ part ∈ parts, ∀ b ∈ Payload.padding part, b = 0 := by
  have made : RowFrame.Made
      [20, 0, 0, 0, 12, 0, 0, 0, 20, 0, 0, 0, 107, 1, 0, 0, 0, 0, 0, 0] [.rowKey]
      [[20, 0, 0, 0, 107, 1, 0, 0]] [.scalar [107]] := ⟨⟨[], rfl⟩, by decide, .cons rfl .nil⟩
  refine ⟨made.accepted (by simp [Payload.Clean, wordSize]), fun zeros => ?_⟩
  exact absurd (zeros _ _ made _ List.mem_cons_self 1 (by decide)) (by decide)

end TupleWire
