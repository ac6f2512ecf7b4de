import TupleWire.Proofs.Machine.Frames

/-! Value frames read on the machine. The machine keeps the whole payload; what the library
has still to read lies between a position and the end of the frame. -/
namespace TupleWire

theorem takeWords?_eq_none_iff {n : Nat} {bytes : Bytes} :
    takeWords? n bytes = none ↔ bytes.length < wordSize * n := by
  induction n generalizing bytes with
  | zero => simp [takeWords?]
  | succ n ih =>
      rw [Nat.mul_succ]
      rcases first : takeWord? bytes with _ | ⟨w, rest⟩
      · have short := takeWord?_eq_none_iff.mp first
        have none : takeWords? (n + 1) bytes = none := by
          rw [takeWords?, first]
          rfl
        exact iff_of_true none (by omega)
      · have size := congrArg List.length (takeWord?_eq_some_iff.mp first)
        rw [List.length_append, Word.length_toBytes] at size
        have later : takeWords? (n + 1) bytes = none ↔ takeWords? n rest = none := by
          rw [takeWords?, first]
          cases others : takeWords? n rest <;> simp [others]
        rw [later, ih]
        omega

/-- The words stand one behind the other from a position on. -/
def WordsAt (bytes : Bytes) (pos : Nat) (words : List Word) : Prop :=
  ∃ behind, bytes.drop pos = words.flatMap Word.toBytes ++ behind

namespace WordsAt

variable {bytes : Bytes} {pos : Nat} {w : Word} {words front back : List Word}

theorem head (h : WordsAt bytes pos (w :: words)) : wordAt? bytes pos = some w := by
  obtain ⟨behind, shape⟩ := h
  rw [wordAt?, shape, List.flatMap_cons, List.append_assoc, takeWord?_append]
  rfl

theorem append_left (h : WordsAt bytes pos (front ++ back)) : WordsAt bytes pos front := by
  obtain ⟨behind, shape⟩ := h
  exact ⟨back.flatMap Word.toBytes ++ behind, by
    rw [shape, List.flatMap_append, List.append_assoc]⟩

theorem length_flatMap (words : List Word) :
    (words.flatMap Word.toBytes).length = wordSize * words.length := by
  induction words with
  | nil => rfl
  | cons w words ih =>
      rw [List.flatMap_cons, List.length_append, ih, Word.length_toBytes, List.length_cons,
        Nat.mul_succ, Nat.add_comm]

theorem append_right (h : WordsAt bytes pos (front ++ back)) :
    WordsAt bytes (pos + wordSize * front.length) back := by
  obtain ⟨behind, shape⟩ := h
  refine ⟨behind, ?_⟩
  rw [← List.drop_drop, shape, List.flatMap_append, List.append_assoc, ← length_flatMap,
    List.drop_left]

theorem tail (h : WordsAt bytes pos (w :: words)) : WordsAt bytes (pos + wordSize) words :=
  append_right (show WordsAt bytes pos ([w] ++ words) from h)

theorem of_take {total : Nat} (order : pos ≤ total) (inside : total ≤ bytes.length)
    (h : WordsAt (bytes.take total) pos words) : WordsAt bytes pos words := by
  obtain ⟨behind, shape⟩ := h
  refine ⟨behind ++ bytes.drop total, ?_⟩
  have long : pos ≤ (bytes.take total).length := by rwa [List.length_take_of_le inside]
  rw [← List.append_assoc, ← shape, ← List.drop_append_of_le_length long, List.take_append_drop]

end WordsAt

theorem takeWords?_drop {n pos : Nat} {bytes rest : Bytes} {words : List Word}
    (inside : pos ≤ bytes.length) (h : takeWords? n (bytes.drop pos) = some (words, rest)) :
    WordsAt bytes pos words ∧ words.length = n ∧ pos + wordSize * n ≤ bytes.length ∧
      rest = bytes.drop (pos + wordSize * n) := by
  obtain ⟨shape, number⟩ := takeWords?_eq_some_iff.mp h
  have size := congrArg List.length shape
  rw [List.length_drop, List.length_append, WordsAt.length_flatMap, number] at size
  refine ⟨⟨rest, shape⟩, number, by omega, ?_⟩
  rw [← number, ← WordsAt.length_flatMap, ← List.drop_drop, shape, List.drop_left]

namespace Machine

def valueLength (form : ValueForm) (payload : Bytes) : Reading Nat := do
  match ← word? payload 0 with
  | none => refuse form.truncated 0
  | some header =>
      match header.valueLength? with
      | none => refuse form.notPlain 0
      | some total =>
          if total < form.least ∨ payload.length < total then refuse form.outOfRange 0
          else return total

def readScalar (payload : Bytes) : Reading Bytes := do
  let total ← valueLength .scalar payload
  slice payload wordSize total

def readCount (payload : Bytes) : Reading Nat := do
  match ← word? payload wordSize with
  | none => refuse .objectCountTruncated wordSize
  | some tag =>
      if tag.toNat / objectMark % 2 = 0 then refuse .objectFlagMissing wordSize
      else return tag.toNat % (Limit.entries + 1)

/-- Where the bytes of the entries begin, if all lengths lie inside the frame. -/
def dataStart? (count total : Nat) : Option Nat :=
  (mul? count (2 * wordSize)).bind fun lengths => addWithin? lengths (2 * wordSize) total

/-- The position of a length word, by its number among the words behind the count word. -/
def lengthAt (number : Nat) : Reading Nat := do
  let skipped ← mul number wordSize
  add (2 * wordSize) skipped

/-- The lengths of `left` keys and values, from entry number `index` on, in an object of
`count` entries. -/
def lengthsFrom (payload : Bytes) (count : Nat) :
    (left index : Nat) → Reading (List Nat × List Nat)
  | 0, _ => return ([], [])
  | left + 1, index => do
      let keyAt ← lengthAt index
      let valueAt ← lengthAt (← add count index)
      let keyLength ← length payload keyAt .keyLengthBad
      let valueLength ← length payload valueAt .valueLengthBad
      let (keyLengths, valueLengths) ← lengthsFrom payload count left (index + 1)
      return (keyLength :: keyLengths, valueLength :: valueLengths)

/-- The lengths of keys and of values, and where the bytes of the entries begin. -/
def readLengths (payload : Bytes) (total count : Nat) : Reading ((List Nat × List Nat) × Nat) :=
  match dataStart? count total with
  | none => refuse .objectLengthsOverrun (2 * wordSize)
  | some start => do
      let lengths ← lengthsFrom payload count count 0
      return (lengths, start)

/-- Cuts items of the given lengths out of a payload, from a position up to `total`. -/
def cut (payload : Bytes) (total : Nat) : List Nat → (pos : Nat) → Reading (List Bytes × Nat)
  | [], pos => return ([], pos)
  | length :: lengths, pos =>
      match addWithin? pos length total with
      | none => refuse .objectEntryOverrun pos
      | some stop => do
          let item ← slice payload pos stop
          let (items, last) ← cut payload total lengths stop
          return (item :: items, last)

def readObject (payload : Bytes) : Reading Object := do
  let total ← valueLength .object payload
  let count ← readCount payload
  let ((keyLengths, valueLengths), start) ← readLengths payload total count
  let (keys, middle) ← cut payload total keyLengths start
  let (values, last) ← cut payload total valueLengths middle
  if last = total then return ⟨keys.zip values⟩ else refuse .objectLengthDisagrees last

variable {payload : Bytes} {total : Nat}

theorem valueLength_follows (form : ValueForm) (room : wordSize ≤ form.least)
    (fits : payload.length < positions) :
    Follows
      (fun total framed => form.least ≤ total ∧ total ≤ payload.length ∧
        framed = (total, (payload.take total).drop wordSize))
      (valueLength form payload) (form.read payload) := by
  rw [valueLength, word?_eq fits, wordAt?, List.drop_zero, ValueForm.read, ok_bind]
  rcases word : takeWord? payload with _ | ⟨header, body⟩
  · exact .refused _
  obtain ⟨rfl, long⟩ := takeWord?_drop (show takeWord? (payload.drop 0) = _ from word)
  rw [Nat.zero_add, Option.map_some]
  simp only
  rcases header.valueLength? with _ | total
  · exact .refused _
  simp only
  by_cases least : total < form.least
  · rw [if_pos (.inl least), if_pos least]
    exact .refused _
  rw [if_neg least]
  by_cases present : total ≤ payload.length
  · have inside : total - wordSize ≤ (payload.drop wordSize).length := by
      rw [List.length_drop]
      omega
    rw [if_neg (by omega), takeBytes?_of_le inside, ← List.drop_take]
    exact .ok ⟨Nat.not_lt.mp least, present, rfl⟩
  · have missing : (payload.drop wordSize).length < total - wordSize := by
      rw [List.length_drop]
      omega
    rw [if_pos (.inr (Nat.not_le.mp present)), takeBytes?_of_lt missing]
    exact .refused _

theorem readScalar_eq (fits : payload.length < positions) :
    readScalar payload = (TupleWire.readScalar payload).mapError .refused := by
  refine Follows.eq ((valueLength_follows .scalar (Nat.le_refl _) fits).bind ?_)
  rintro total _ ⟨least, present, rfl⟩
  have room : wordSize ≤ total := least
  rw [slice_of_le room present, ← List.drop_take]
  exact .ok rfl

/-- The count word stands inside the frame, so it is found in the payload as well. -/
theorem readCount_follows (fits : payload.length < positions) (least : 2 * wordSize ≤ total)
    (present : total ≤ payload.length) :
    Follows (fun count counted => counted = (count, (payload.take total).drop (2 * wordSize)))
      (readCount payload) (Object.readCount ((payload.take total).drop wordSize)) := by
  have order : wordSize ≤ total := by omega
  rcases word : takeWord? ((payload.take total).drop wordSize) with _ | ⟨tag, rest⟩
  · have short := takeWord?_eq_none_iff.mp word
    rw [List.length_drop, List.length_take_of_le present] at short
    omega
  have found : WordsAt payload wordSize [tag] :=
    .of_take order present ⟨rest, takeWord?_eq_some_iff.mp word⟩
  obtain ⟨rfl, -⟩ := takeWord?_drop word
  rw [readCount, word?_eq fits, found.head, ok_bind, Object.readCount, word]
  simp only
  split
  · exact .refused _
  · exact .ok rfl

theorem dataStart?_of_le {count : Nat} (fits : total < positions)
    (inside : 2 * wordSize + wordSize * (count + count) ≤ total) :
    dataStart? count total = some (2 * wordSize + wordSize * (count + count)) := by
  have sum : count * (2 * wordSize) + 2 * wordSize = 2 * wordSize + wordSize * (count + count) := by
    simp only [wordSize]
    omega
  rw [dataStart?, mul?, if_pos (by omega), Option.bind_some,
    addWithin?_of_le fits (by omega), sum]

theorem dataStart?_of_lt {count : Nat}
    (beyond : total < 2 * wordSize + wordSize * (count + count)) : dataStart? count total = none := by
  rw [dataStart?, mul?]
  split
  · exact addWithin?_of_lt (by simp only [wordSize] at beyond ⊢; omega)
  · rfl

theorem lengthAt_eq {limit number : Nat} (fits : limit < positions)
    (inside : wordSize * (2 + number) ≤ limit) : lengthAt number = .ok (wordSize * (2 + number)) := by
  have sum : 2 * wordSize + number * wordSize = wordSize * (2 + number) := by
    rw [← Nat.add_mul, Nat.mul_comm]
  rw [lengthAt, mul_of_le fits (by omega), ok_bind, add_of_le fits (by omega), sum]

theorem lengthsFrom_eq (fits : payload.length < positions) {count index : Nat}
    {keys values : List Word} (same : values.length = keys.length)
    (last : index + keys.length = count)
    (inside : wordSize * (2 + (count + count)) ≤ payload.length)
    (keysAt : WordsAt payload (wordSize * (2 + index)) keys)
    (valuesAt : WordsAt payload (wordSize * (2 + (count + index))) values) :
    lengthsFrom payload count keys.length index =
      (Object.lengthsOf count index keys values).mapError .refused := by
  -- With each entry both places move on by one word, the `count` words between them stay.
  induction keys generalizing index values with
  | nil =>
      obtain rfl := List.eq_nil_of_length_eq_zero same
      rfl
  | cons key keys ih =>
      obtain ⟨value, values, rfl⟩ := List.exists_cons_of_length_eq_add_one same
      rw [List.length_cons] at last same ⊢
      simp only [wordSize] at inside
      have keyAt : lengthAt index = _ := lengthAt_eq fits (by simp only [wordSize]; omega)
      have sum : add count index = _ := add_of_le fits (by omega)
      have valueAt : lengthAt (count + index) = _ :=
        lengthAt_eq fits (by simp only [wordSize]; omega)
      have next : index + 1 + keys.length = count := by omega
      have later := ih (Nat.succ.inj same) next keysAt.tail valuesAt.tail
      rw [lengthsFrom, keyAt, ok_bind, sum, ok_bind, valueAt, ok_bind, length_eq fits, keysAt.head,
        length_eq fits, valuesAt.head, Object.lengthsOf]
      simp only [Option.bind_some]
      rcases key.length? with _ | keyLength
      · rfl
      rcases value.length? with _ | valueLength
      · rw [Nat.add_assoc]
        rfl
      simp only [ok_bind]
      rw [later]
      rcases Object.lengthsOf count (index + 1) keys values with _ | ⟨_, _⟩ <;> rfl

/-- Of the words behind the count word, the first half are the lengths of the keys. -/
theorem lengthsFrom_zero (fits : payload.length < positions) {count : Nat} {words : List Word}
    (number : words.length = count + count)
    (inside : 2 * wordSize + wordSize * (count + count) ≤ payload.length)
    (stand : WordsAt payload (2 * wordSize) words) :
    lengthsFrom payload count count 0 =
      (Object.lengthsOf count 0 (words.take count) (words.drop count)).mapError .refused := by
  have keysLength : (words.take count).length = count := List.length_take_of_le (by omega)
  have valuesLength : (words.drop count).length = (words.take count).length := by
    rw [keysLength, List.length_drop]
    omega
  have whole : wordSize * (2 + (count + count)) ≤ payload.length := by
    rwa [Nat.mul_add, Nat.mul_comm wordSize 2]
  rw [← List.take_append_drop count words] at stand
  have behind := stand.append_right
  rw [keysLength, ← Nat.mul_comm wordSize 2, ← Nat.mul_add] at behind
  have lengths := lengthsFrom_eq fits valuesLength (by rw [Nat.zero_add, keysLength]) whole
    stand.append_left behind
  rwa [keysLength] at lengths

/-- A reading that leaves off at a position of the payload follows a reader that leaves the
bytes from there to the end of the frame. -/
def LeavesAt {α : Type} (payload : Bytes) (total : Nat) (read : α × Nat) (left : α × Bytes) : Prop :=
  read.2 ≤ total ∧ left = (read.1, (payload.take total).drop read.2)

theorem readLengths_follows (fits : payload.length < positions) (least : 2 * wordSize ≤ total)
    (present : total ≤ payload.length) (count : Nat) :
    Follows (LeavesAt payload total) (readLengths payload total count)
      (Object.readLengths count ((payload.take total).drop (2 * wordSize))) := by
  have size : (payload.take total).length = total := List.length_take_of_le present
  rw [readLengths, Object.readLengths]
  rcases taken : takeWords? (count + count) ((payload.take total).drop (2 * wordSize)) with
    _ | ⟨words, rest⟩
  · have short := takeWords?_eq_none_iff.mp taken
    rw [List.length_drop, size] at short
    rw [dataStart?_of_lt (by omega)]
    exact .refused _
  · obtain ⟨stand, number, inside, rfl⟩ := takeWords?_drop (by rwa [size]) taken
    rw [size] at inside
    have lengths := lengthsFrom_zero fits number (Nat.le_trans inside present)
      (.of_take least present stand)
    rw [dataStart?_of_le (by omega) inside]
    simp only
    rw [lengths]
    rcases Object.lengthsOf count 0 (words.take count) (words.drop count) with e | lengths
    · exact .refused e
    · exact .ok ⟨inside, rfl⟩

theorem cut_follows (fits : payload.length < positions) (present : total ≤ payload.length)
    (lengths : List Nat) {pos : Nat} (inside : pos ≤ total) :
    Follows (LeavesAt payload total) (cut payload total lengths pos)
      (Object.cut total lengths ((payload.take total).drop pos)) := by
  induction lengths generalizing pos with
  | nil => exact .ok ⟨inside, rfl⟩
  | cons length lengths ih =>
      have size : ((payload.take total).drop pos).length = total - pos := by
        rw [List.length_drop, List.length_take_of_le present]
      rw [cut, Object.cut]
      by_cases within : pos + length ≤ total
      · have room : length ≤ ((payload.take total).drop pos).length := by omega
        have item : ((payload.take total).drop pos).take length =
            (payload.drop pos).take length := by
          rw [List.drop_take, List.take_take, Nat.min_eq_left (by omega)]
        rw [addWithin?_of_le (by omega) within, takeBytes?_of_le room, List.drop_drop, item]
        simp only
        rw [slice_of_le (Nat.le_add_right _ _) (by omega), ok_bind, Nat.add_sub_cancel_left]
        refine (ih within).bind ?_
        rintro ⟨items, last⟩ _ ⟨end_, rfl⟩
        exact .ok ⟨end_, rfl⟩
      · have missing : ((payload.take total).drop pos).length < length := by omega
        have back : total - ((payload.take total).drop pos).length = pos := by omega
        rw [addWithin?_of_lt (Nat.not_le.mp within), takeBytes?_of_lt missing]
        simp only
        rw [back]
        exact .refused _

theorem readObject_eq (fits : payload.length < positions) :
    readObject payload = (Object.read payload).mapError .refused := by
  refine Follows.eq ((valueLength_follows .object (by decide) fits).bind ?_)
  rintro total _ ⟨least, present, rfl⟩
  refine (readCount_follows fits least present).bind ?_
  rintro count _ rfl
  refine (readLengths_follows fits least present count).bind ?_
  rintro ⟨⟨keyLengths, valueLengths⟩, start⟩ _ ⟨inside, rfl⟩
  refine (cut_follows fits present keyLengths inside).bind ?_
  rintro ⟨keys, middle⟩ _ ⟨inside, rfl⟩
  refine (cut_follows fits present valueLengths inside).bind ?_
  rintro ⟨values, last⟩ _ ⟨inside, rfl⟩
  have size : ((payload.take total).drop last).length = total - last := by
    rw [List.length_drop, List.length_take_of_le present]
  simp only at inside ⊢
  by_cases whole : last = total
  · have none : ((payload.take total).drop last).isEmpty = true := by
      rw [List.isEmpty_iff_length_eq_zero]
      omega
    rw [if_pos whole, if_pos none]
    exact .ok rfl
  · have some : ¬ ((payload.take total).drop last).isEmpty = true := by
      rw [List.isEmpty_iff_length_eq_zero]
      omega
    have back : total - ((payload.take total).drop last).length = last := by omega
    rw [if_neg whole, if_neg some, back]
    exact .refused _

end Machine

end TupleWire
