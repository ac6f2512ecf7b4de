import TupleWire.Proofs.Frame.Layout

/-! Readers of value frames give back what was laid, whatever follows it. -/
namespace TupleWire

theorem LengthForm.length?_stored {size : Nat} (h : LengthForm.raw.Fits size) :
    (LengthForm.raw.stored size).length? = some size :=
  LengthForm.length?_of_word_raw (LengthForm.word_of_fits h)

theorem LengthForm.valueLength?_stored {size : Nat} (h : LengthForm.shifted.Fits size) :
    (LengthForm.shifted.stored size).valueLength? = some size :=
  LengthForm.valueLength?_of_word_shifted (LengthForm.word_of_fits h)

namespace ValueForm

theorem read_eq_ok_iff {form : ValueForm} {payload body : Bytes} {total : Nat} :
    form.read payload = .ok (total, body) ↔
      ∃ (header : Word) (rest : Bytes), payload = header.toBytes ++ (body ++ rest) ∧
        header.valueLength? = some total ∧ form.least ≤ total ∧
        body.length = total - wordSize := by
  constructor
  · intro h
    rw [read] at h
    split at h
    · cases h
    · next header behind first =>
        split at h
        · cases h
        · next length counted =>
            split at h
            · cases h
            · next least =>
                split at h
                · cases h
                · next frame rest taken =>
                    cases h
                    obtain ⟨rfl, full⟩ := takeBytes?_eq_some_iff.mp taken
                    exact ⟨header, rest, takeWord?_eq_some_iff.mp first, counted,
                      Nat.not_lt.mp least, full⟩
  · rintro ⟨header, rest, rfl, counted, least, full⟩
    rw [read, takeWord?_append]
    simp only [counted]
    rw [if_neg (Nat.not_lt.mpr least), ← full, takeBytes?_append]

theorem read_frame (form : ValueForm) {body : Bytes}
    (fits : (Layout.frame .shifted body).length ≤ Limit.value)
    (least : form.least ≤ wordSize + body.length) (rest : Bytes) :
    form.read (Layout.frame .shifted body ++ rest) = .ok (wordSize + body.length, body) := by
  rw [Layout.length_frame] at fits
  exact read_eq_ok_iff.mpr ⟨_, rest, List.append_assoc _ _ _, LengthForm.valueLength?_stored fits,
    least, (Nat.add_sub_cancel_left _ _).symm⟩

end ValueForm

theorem readScalar_append {data : Bytes} (fits : (Layout.scalar data).length ≤ Limit.value)
    (rest : Bytes) : readScalar (Layout.scalar data ++ rest) = .ok data := by
  have framed := ValueForm.read_frame .scalar fits (Nat.le_add_right _ _) rest
  rw [readScalar, Layout.scalar, framed]
  rfl

/-- A word that counts the entries of an object: it has the mark, and the bits below hold the
number. The other bits are free. -/
def Word.Counts (tag : Word) (count : Nat) : Prop :=
  tag.toNat / objectMark % 2 = 1 ∧ tag.toNat % (Limit.entries + 1) = count

theorem Word.counts_ofNat {count : Nat} (few : count ≤ Limit.entries) :
    (Word.ofNat (count + objectMark)).Counts count := by
  simp only [Limit.entries] at few
  have tag : (Word.ofNat (count + objectMark)).toNat = count + objectMark :=
    Word.toNat_ofNat (by simp only [objectMark]; omega)
  rw [Counts, tag]
  simp only [objectMark, Limit.entries]
  omega

namespace Layout

def items (object : Object) : Bytes :=
  lengths object.keys ++
    (lengths object.values ++ (object.keys.flatten ++ object.values.flatten))

def tagged (tag : Word) (object : Object) : Bytes :=
  frame .shifted (tag.toBytes ++ items object)

theorem object_eq_tagged (object : Object) :
    Layout.object object = tagged (.ofNat (object.size + objectMark)) object := rfl

theorem length_tagged (tag : Word) (object : Object) :
    (tagged tag object).length = (Layout.object object).length := by
  simp only [object_eq_tagged, tagged, length_frame, List.length_append, Word.length_toBytes]

theorem tagged_eq (tag : Word) (object : Object) :
    tagged tag object = (LengthForm.shifted.stored (Layout.object object).length).toBytes ++
      (tag.toBytes ++ items object) := by
  rw [← length_tagged tag, tagged, length_frame, frame]

end Layout

namespace Object

theorem readCount_append {tag : Word} {count : Nat} (h : tag.Counts count) (rest : Bytes) :
    readCount (tag.toBytes ++ rest) = .ok (count, rest) := by
  have marked : ¬ tag.toNat / objectMark % 2 = 0 := by
    rw [h.1]
    decide
  rw [readCount, takeWord?_append]
  simp only
  rw [if_neg marked, h.2]

def lengthWords (items : List Bytes) : List Word :=
  items.map fun item => LengthForm.raw.stored item.length

theorem lengthsOf_lengthWords (count index : Nat) {keys values : List Bytes}
    (same : keys.length = values.length) (keysFit : ∀ key ∈ keys, LengthForm.raw.Fits key.length)
    (valuesFit : ∀ item ∈ values, LengthForm.raw.Fits item.length) :
    lengthsOf count index (lengthWords keys) (lengthWords values) =
      .ok (keys.map List.length, values.map List.length) := by
  induction keys generalizing index values with
  | nil =>
      rw [List.eq_nil_of_length_eq_zero same.symm]
      rfl
  | cons key keys ih =>
      cases values with
      | nil => cases same
      | cons item values =>
          have keyFits := LengthForm.length?_stored (keysFit key (by simp))
          have itemFits := LengthForm.length?_stored (valuesFit item (by simp))
          have rest := ih (index + 1) (Nat.succ.inj same)
            (fun key member => keysFit key (List.mem_cons_of_mem _ member))
            (fun item member => valuesFit item (List.mem_cons_of_mem _ member))
          simp only [lengthWords, List.map_cons, lengthsOf, keyFits, itemFits] at rest ⊢
          rw [rest]
          rfl

theorem flatMap_lengthWords (items : List Bytes) :
    (lengthWords items).flatMap Word.toBytes = Layout.lengths items :=
  List.flatMap_map _ _ items

theorem readLengths_append {keys values : List Bytes} (same : keys.length = values.length)
    (keysFit : ∀ key ∈ keys, LengthForm.raw.Fits key.length)
    (valuesFit : ∀ item ∈ values, LengthForm.raw.Fits item.length) (rest : Bytes) :
    readLengths keys.length (Layout.lengths keys ++ (Layout.lengths values ++ rest)) =
      .ok ((keys.map List.length, values.map List.length), rest) := by
  have keyWords : (lengthWords keys).length = keys.length := List.length_map _
  have valueWords : (lengthWords values).length = values.length := List.length_map _
  have total : (lengthWords keys ++ lengthWords values).length = keys.length + keys.length := by
    rw [List.length_append, keyWords, valueWords, same]
  have words : takeWords? (keys.length + keys.length)
      (Layout.lengths keys ++ (Layout.lengths values ++ rest)) =
        some (lengthWords keys ++ lengthWords values, rest) := by
    rw [← total, ← List.append_assoc, ← flatMap_lengthWords, ← flatMap_lengthWords,
      ← List.flatMap_append]
    exact takeWords?_append _ _
  rw [readLengths, words]
  simp only
  rw [← keyWords, List.take_left, List.drop_left,
    lengthsOf_lengthWords _ _ same keysFit valuesFit]
  rfl

theorem cut_append (total : Nat) (items : List Bytes) (rest : Bytes) :
    cut total (items.map List.length) (items.flatten ++ rest) = .ok (items, rest) := by
  induction items with
  | nil => rfl
  | cons item items ih =>
      simp only [List.map_cons, List.flatten_cons, cut, List.append_assoc, takeBytes?_append]
      rw [ih]
      rfl

/-- An object is read in five steps, each on what the one before has left. -/
theorem read_of_parts {payload frame lengths data items : Bytes} {total count : Nat}
    {keyLengths valueLengths : List Nat} {keys values : List Bytes}
    (framed : ValueForm.object.read payload = .ok (total, frame))
    (counted : readCount frame = .ok (count, lengths))
    (measured : readLengths count lengths = .ok ((keyLengths, valueLengths), data))
    (keysCut : cut total keyLengths data = .ok (keys, items))
    (valuesCut : cut total valueLengths items = .ok (values, [])) :
    Object.read payload = .ok ⟨keys.zip values⟩ := by
  simp only [Object.read, bind, Except.bind, framed, counted, measured, keysCut, valuesCut]
  rfl

theorem read_tagged {tag : Word} {object : Object} (counts : tag.Counts object.size)
    (fits : (Layout.tagged tag object).length ≤ Limit.value) (rest : Bytes) :
    Object.read (Layout.tagged tag object ++ rest) = .ok object := by
  have length := Layout.length_tagged tag object
  obtain ⟨few, keysFit, valuesFit⟩ := Layout.parts_fit (length ▸ fits)
  have size : object.keys.length = object.size := List.length_map _
  have same : object.keys.length = object.values.length := size.trans (List.length_map _).symm
  have least : ValueForm.object.least ≤ wordSize + (tag.toBytes ++ Layout.items object).length := by
    rw [List.length_append, Word.length_toBytes]
    change 2 * wordSize ≤ _
    omega
  have measured := readLengths_append same keysFit valuesFit
    (object.keys.flatten ++ object.values.flatten)
  rw [size] at measured
  have valuesCut := cut_append (wordSize + (tag.toBytes ++ Layout.items object).length)
    object.values []
  rw [List.append_nil] at valuesCut
  have whole : object.entries = object.keys.zip object.values := List.zip_of_prod rfl rfl
  have parts := read_of_parts (ValueForm.read_frame .object fits least rest)
    (readCount_append counts _) measured (cut_append _ object.keys _) valuesCut
  rw [← whole] at parts
  exact parts

theorem read_append {object : Object} (fits : (Layout.object object).length ≤ Limit.value)
    (rest : Bytes) : Object.read (Layout.object object ++ rest) = .ok object :=
  read_tagged (Word.counts_ofNat (Layout.parts_fit fits).1) fits rest

end Object

end TupleWire
