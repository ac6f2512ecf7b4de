import TupleWire.Proofs.Frame.Corrupting

/-! Value frames are read exactly where they were written: what a reader accepts begins with
the bytes that a writer makes of the value, but for bits of the count word that are free. -/
namespace TupleWire

namespace Word

theorem eq_ofNat {w : Word} {n : Nat} (h : w.toNat = n) : w = ofNat n := by
  rw [← h]
  exact UInt32.ofNat_toNat.symm

theorem toNat_of_valueLength? {w : Word} {n : Nat} (h : w.valueLength? = some n) :
    w.toNat = 4 * n := by
  rw [valueLength?] at h
  split at h
  · have same := Option.some.inj h
    omega
  · cases h

/-- The words have the same bits, but for those in the list. -/
def AgreeBut (free : List Nat) (v w : Word) : Prop :=
  ∀ i, i ∉ free → v.toNat.testBit i = w.toNat.testBit i

/-- The bits of a count word that are neither the mark of objects nor part of the number. -/
def freeBits : List Nat := [28, 30, 31]

theorem number_eq_iff_testBit {n m : Nat} :
    n % (Limit.entries + 1) = m % (Limit.entries + 1) ↔
      ∀ i < 28, n.testBit i = m.testBit i := by
  have bits (k i : Nat) : (k % (Limit.entries + 1)).testBit i = (decide (i < 28) && k.testBit i) :=
    Nat.testBit_mod_two_pow k 28 i
  constructor
  · intro same i low
    have bit := congrArg (·.testBit i) same
    simpa only [bits, low, decide_true, Bool.true_and] using bit
  · intro same
    apply Nat.eq_of_testBit_eq
    intro i
    rw [bits, bits]
    by_cases low : i < 28
    · rw [same i low]
    · simp only [low, decide_false, Bool.false_and]

theorem testBit_mark {n : Nat} : n.testBit 29 = decide (n / objectMark % 2 = 1) :=
  Nat.testBit_eq_decide_div_mod_eq

/-- A word counts the entries of an object exactly if it is the count word written for them, up
to the free bits. -/
theorem counts_iff_agreeBut {tag : Word} {count : Nat} (few : count ≤ Limit.entries) :
    tag.Counts count ↔ AgreeBut freeBits tag (.ofNat (count + objectMark)) := by
  have written : (Word.ofNat (count + objectMark)).toNat = count + objectMark := by
    simp only [Limit.entries] at few
    exact toNat_ofNat (by simp only [objectMark]; omega)
  have counts := Word.counts_ofNat few
  rw [Counts, written] at counts
  rw [Counts, AgreeBut, written]
  constructor
  · rintro ⟨marked, counted⟩ i bound
    by_cases small : i < 28
    · exact number_eq_iff_testBit.mp (counted.trans counts.2.symm) i small
    · by_cases mark : i = 29
      · rw [mark, testBit_mark, testBit_mark, marked, counts.1]
      · have large : 32 ≤ i := by
          simp only [freeBits, List.mem_cons, List.not_mem_nil] at bound
          omega
        have wide : 2 ^ 32 ≤ 2 ^ i := Nat.pow_le_pow_right (by decide) large
        have word := tag.toNat_lt
        have short : count + objectMark < 2 ^ 32 := by
          rw [← written]
          exact (Word.ofNat _).toNat_lt
        rw [Nat.testBit_lt_two_pow (by omega), Nat.testBit_lt_two_pow (by omega)]
  · intro same
    have mark := same 29 (by decide)
    rw [testBit_mark, testBit_mark, counts.1, decide_eq_decide] at mark
    refine ⟨mark.mpr rfl, ?_⟩
    have number := number_eq_iff_testBit.mpr fun i small => same i (by
      intro free
      simp only [freeBits, List.mem_cons, List.not_mem_nil, or_false] at free
      omega)
    exact number.trans counts.2

theorem testBit_written {count : Nat} (few : count ≤ Limit.entries) :
    ∀ i ∈ freeBits, (ofNat (count + objectMark)).toNat.testBit i = false := by
  simp only [Limit.entries] at few
  have written : (ofNat (count + objectMark)).toNat = count + objectMark :=
    toNat_ofNat (by simp only [objectMark]; omega)
  intro i free
  simp only [freeBits, List.mem_cons, List.not_mem_nil, or_false] at free
  rw [written, Nat.testBit_eq_decide_div_mod_eq, decide_eq_false_iff_not]
  rcases free with rfl | rfl | rfl
  all_goals
    simp only [objectMark]
    omega

theorem AgreeBut.eq {free : List Nat} {v w : Word} (h : AgreeBut free v w)
    (clear : ∀ i ∈ free, v.toNat.testBit i = false)
    (clear' : ∀ i ∈ free, w.toNat.testBit i = false) : v = w := by
  apply UInt32.toNat_inj.mp
  apply Nat.eq_of_testBit_eq
  intro i
  by_cases bit : i ∈ free
  · rw [clear i bit, clear' i bit]
  · exact h i bit

end Word

namespace Write

/-- Into an empty buffer with room for them the write puts these bytes, and it tells their
number. -/
def Makes (write : Write Nat) (data : Bytes) : Prop :=
  ∀ room, data.length ≤ room →
    write.on { limit := room } = (.ok data.length, { bytes := data, limit := room })

theorem Lays.makes_iff {write : Write Nat} {valid : Prop} {data other : Bytes}
    (lays : ∀ buf, write.Lays buf valid data data.length) :
    write.Makes other ↔ valid ∧ other = data := by
  constructor
  · intro makes
    obtain ⟨holds, -, -, after⟩ := (lays _).of_ok (makes other.length (Nat.le_refl _))
    exact ⟨holds, congrArg Buffer.bytes after⟩
  · rintro ⟨holds, rfl⟩ room fits
    exact (lays _).laid holds fits

end Write

theorem ValueForm.frame_of_read {form : ValueForm} {payload body : Bytes} {total : Nat}
    (large : wordSize ≤ form.least) (h : form.read payload = .ok (total, body)) :
    Layout.frame .shifted body <+: payload := by
  obtain ⟨header, rest, rfl, counted, least, full⟩ := read_eq_ok_iff.mp h
  have whole : total = wordSize + body.length := by omega
  have word := Word.eq_ofNat (Word.toNat_of_valueLength? counted)
  rw [whole] at word
  rw [word, ← List.append_assoc]
  exact List.prefix_append _ _

theorem scalar_of_read {payload data : Bytes} (h : readScalar payload = .ok data) :
    Layout.scalar data <+: payload := by
  obtain ⟨⟨total, body⟩, framed, same⟩ := ok_of_bind h
  cases same
  exact ValueForm.frame_of_read (Nat.le_refl _) framed

namespace Object

theorem counts_of_readCount {frame rest : Bytes} {count : Nat}
    (h : readCount frame = .ok (count, rest)) :
    ∃ tag : Word, tag.Counts count ∧ frame = tag.toBytes ++ rest := by
  rw [readCount] at h
  split at h
  · cases h
  · next tag behind first =>
      split at h
      · cases h
      · next marked =>
          cases h
          exact ⟨tag, ⟨by omega, rfl⟩, takeWord?_eq_some_iff.mp first⟩

theorem words_of_lengthsOf {count index : Nat} {keys values : List Word}
    {keyLengths valueLengths : List Nat} (same : keys.length = values.length)
    (h : lengthsOf count index keys values = .ok (keyLengths, valueLengths)) :
    keys = keyLengths.map LengthForm.raw.stored ∧
      values = valueLengths.map LengthForm.raw.stored := by
  induction keys generalizing index values keyLengths valueLengths with
  | nil =>
      obtain rfl := List.eq_nil_of_length_eq_zero same.symm
      cases h
      exact ⟨rfl, rfl⟩
  | cons key keys ih =>
      cases values with
      | nil => cases same
      | cons value values =>
          rw [lengthsOf] at h
          split at h
          · cases h
          · cases h
          · next keyLength valueLength keyCounted valueCounted =>
              obtain ⟨⟨keyRest, valueRest⟩, rest, given⟩ := ok_of_bind h
              cases given
              obtain ⟨rfl, rfl⟩ := ih (Nat.succ.inj same) rest
              rw [Word.length?_eq_some_iff, Word.signed_eq_natCast_iff] at keyCounted valueCounted
              obtain ⟨-, rfl⟩ := keyCounted
              obtain ⟨-, rfl⟩ := valueCounted
              exact ⟨rfl, rfl⟩

def lengthBytes (lengths : List Nat) : Bytes :=
  (lengths.map LengthForm.raw.stored).flatMap Word.toBytes

theorem lengthBytes_of_readLengths {count : Nat} {bytes rest : Bytes}
    {keyLengths valueLengths : List Nat}
    (h : readLengths count bytes = .ok ((keyLengths, valueLengths), rest)) :
    keyLengths.length = count ∧ valueLengths.length = count ∧
      bytes = lengthBytes keyLengths ++ (lengthBytes valueLengths ++ rest) := by
  rw [readLengths] at h
  split at h
  · cases h
  · next words behind taken =>
      obtain ⟨lengths, measured, given⟩ := ok_of_bind h
      cases given
      obtain ⟨rfl, twice⟩ := takeWords?_eq_some_iff.mp taken
      have keys : (words.take count).length = count := List.length_take_of_le (by omega)
      have values : (words.drop count).length = count := by rw [List.length_drop]; omega
      obtain ⟨keyWords, valueWords⟩ := words_of_lengthsOf (keys.trans values.symm) measured
      refine ⟨?_, ?_, ?_⟩
      · rw [← keys, keyWords, List.length_map]
      · rw [← values, valueWords, List.length_map]
      · rw [lengthBytes, lengthBytes, ← keyWords, ← valueWords, ← List.append_assoc,
          ← List.flatMap_append, List.take_append_drop]

theorem flatten_of_cut {total : Nat} {lengths : List Nat} {bytes rest : Bytes} {items : List Bytes}
    (h : cut total lengths bytes = .ok (items, rest)) :
    items.map List.length = lengths ∧ bytes = items.flatten ++ rest := by
  induction lengths generalizing bytes items with
  | nil =>
      cases h
      exact ⟨rfl, rfl⟩
  | cons length lengths ih =>
      rw [cut] at h
      split at h
      · cases h
      · next item behind taken =>
          obtain ⟨⟨others, last⟩, later, given⟩ := ok_of_bind h
          cases given
          obtain ⟨rfl, rfl⟩ := ih later
          obtain ⟨rfl, rfl⟩ := takeBytes?_eq_some_iff.mp taken
          exact ⟨rfl, by rw [List.flatten_cons, List.append_assoc]⟩

theorem lengthBytes_map (items : List Bytes) :
    lengthBytes (items.map List.length) = Layout.lengths items := by
  rw [lengthBytes, List.map_map, List.flatMap_map]
  rfl

theorem tagged_of_read {payload : Bytes} {object : Object} (h : Object.read payload = .ok object) :
    ∃ tag : Word, tag.Counts object.size ∧ Layout.tagged tag object <+: payload := by
  obtain ⟨⟨total, frame⟩, framed, h⟩ := ok_of_bind h
  obtain ⟨⟨count, lengths⟩, counted, h⟩ := ok_of_bind h
  obtain ⟨⟨⟨keyLengths, valueLengths⟩, data⟩, measured, h⟩ := ok_of_bind h
  obtain ⟨⟨keys, middle⟩, keysCut, h⟩ := ok_of_bind h
  obtain ⟨⟨values, behind⟩, valuesCut, h⟩ := ok_of_bind h
  simp only at h
  split at h
  · next nothing =>
      cases h
      obtain ⟨tag, counts, rfl⟩ := counts_of_readCount counted
      obtain ⟨keyCount, valueCount, rfl⟩ := lengthBytes_of_readLengths measured
      obtain ⟨rfl, rfl⟩ := flatten_of_cut keysCut
      obtain ⟨rfl, rfl⟩ := flatten_of_cut valuesCut
      obtain rfl := List.isEmpty_iff.mp nothing
      rw [List.length_map] at keyCount valueCount
      have size : Object.size ⟨keys.zip values⟩ = count := by
        rw [Object.size, List.length_zip, keyCount, valueCount, Nat.min_self]
      have shown : Object.keys ⟨keys.zip values⟩ = keys ∧
          Object.values ⟨keys.zip values⟩ = values :=
        ⟨List.map_fst_zip (by omega), List.map_snd_zip (by omega)⟩
      have front := ValueForm.frame_of_read (by decide) framed
      rw [lengthBytes_map, lengthBytes_map, List.append_nil] at front
      refine ⟨tag, size ▸ counts, ?_⟩
      rw [Layout.tagged, Layout.items, shown.1, shown.2]
      exact front
  · cases h

end Object

/-- The byte strings differ at most in the free bits of the second word. -/
def Object.Alike (frame written : Bytes) : Prop :=
  ∃ (header tag count : Word) (rest : Bytes),
    frame = header.toBytes ++ (tag.toBytes ++ rest) ∧
    written = header.toBytes ++ (count.toBytes ++ rest) ∧ tag.AgreeBut Word.freeBits count

/-- The payload begins with what is written for the object, up to the free bits of the count
word. -/
def Object.Stands (object : Object) (payload : Bytes) : Prop :=
  ∃ written frame, (Write.putObject object).Makes written ∧ frame <+: payload ∧
    Object.Alike frame written

theorem Write.makes_putScalar_iff {data written : Bytes} :
    (putScalar data).Makes written ↔
      (Layout.scalar data).length ≤ Limit.value ∧ written = Layout.scalar data :=
  Lays.makes_iff (lays_putScalar data)

theorem Write.makes_putObject_iff {object : Object} {written : Bytes} :
    (putObject object).Makes written ↔
      (Layout.object object).length ≤ Limit.value ∧ written = Layout.object object :=
  Lays.makes_iff (lays_putObject object)

/-- An object stands at the front exactly if its frame does, under a count word for its entries. -/
theorem Object.stands_iff {object : Object} {payload : Bytes} :
    object.Stands payload ↔ (Layout.object object).length ≤ Limit.value ∧
      ∃ tag : Word, tag.Counts object.size ∧ Layout.tagged tag object <+: payload := by
  constructor
  · rintro ⟨written, frame, makes, front, header, tag, count, items, rfl, same, agree⟩
    obtain ⟨fits, rfl⟩ := Write.makes_putObject_iff.mp makes
    rw [Layout.object_eq_tagged, Layout.tagged_eq] at same
    have first := congrArg takeWord? same
    rw [takeWord?_append, takeWord?_append, Option.some.injEq, Prod.mk.injEq] at first
    obtain ⟨rfl, behind⟩ := first
    have second := congrArg takeWord? behind
    rw [takeWord?_append, takeWord?_append, Option.some.injEq, Prod.mk.injEq] at second
    obtain ⟨rfl, rfl⟩ := second
    rw [← Layout.tagged_eq] at front
    exact ⟨fits, tag, (Word.counts_iff_agreeBut (Layout.parts_fit fits).1).mpr agree, front⟩
  · rintro ⟨fits, tag, counts, front⟩
    have agree := (Word.counts_iff_agreeBut (Layout.parts_fit fits).1).mp counts
    exact ⟨_, _, Write.makes_putObject_iff.mpr ⟨fits, rfl⟩, front, _, tag, _, _,
      Layout.tagged_eq tag object, Layout.tagged_eq _ object, agree⟩

theorem Object.read_of_stands {object : Object} {payload : Bytes} (h : object.Stands payload) :
    Object.read payload = .ok object := by
  obtain ⟨fits, tag, counts, rest, rfl⟩ := stands_iff.mp h
  exact read_tagged counts (by rwa [Layout.length_tagged]) rest

theorem Object.read_iff_stands {object : Object} {payload : Bytes}
    (short : payload.length ≤ Limit.value) :
    Object.read payload = .ok object ↔ object.Stands payload := by
  refine ⟨fun h => ?_, read_of_stands⟩
  obtain ⟨tag, counts, front⟩ := tagged_of_read h
  have fits := Nat.le_trans front.length_le short
  rw [Layout.length_tagged] at fits
  exact stands_iff.mpr ⟨fits, tag, counts, front⟩

theorem Object.written_of_clear {object : Object} {payload : Bytes} {tag : Word}
    (stands : object.Stands payload) (second : wordAt? payload wordSize = some tag)
    (clear : ∀ i ∈ Word.freeBits, tag.toNat.testBit i = false) :
    ∃ written, (Write.putObject object).Makes written ∧ written <+: payload := by
  obtain ⟨fits, found, counts, rest, rfl⟩ := stands_iff.mp stands
  have few := (Layout.parts_fit fits).1
  have agree := (Word.counts_iff_agreeBut few).mp counts
  have behind : (Layout.tagged found object ++ rest).drop wordSize =
      found.toBytes ++ (Layout.items object ++ rest) := by
    rw [Layout.tagged_eq, List.append_assoc, List.append_assoc]
    rfl
  rw [wordAt?, behind, takeWord?_append, Option.map_some, Option.some.injEq] at second
  subst second
  have same := agree.eq clear (Word.testBit_written few)
  refine ⟨_, Write.makes_putObject_iff.mpr ⟨fits, rfl⟩, ?_⟩
  rw [same, ← Layout.object_eq_tagged]
  exact List.prefix_append _ _

theorem readScalar_iff_written {data payload : Bytes} (short : payload.length ≤ Limit.value) :
    readScalar payload = .ok data ↔
      ∃ written, (Write.putScalar data).Makes written ∧ written <+: payload := by
  constructor
  · intro h
    have front := scalar_of_read h
    exact ⟨_, Write.makes_putScalar_iff.mpr ⟨Nat.le_trans front.length_le short, rfl⟩, front⟩
  · rintro ⟨written, makes, rest, rfl⟩
    obtain ⟨fits, rfl⟩ := Write.makes_putScalar_iff.mp makes
    exact readScalar_append fits rest

/-- What reading a payload and writing values have to do with each other. -/
structure ReadAsWritten (payload : Bytes) : Prop where
  object : ∀ object, Object.read payload = .ok object ↔ object.Stands payload
  unique : ∀ object other, Object.Stands object payload → Object.Stands other payload →
    object = other
  rewritten : ∀ object tag, Object.read payload = .ok object →
    wordAt? payload wordSize = some tag → (∀ i ∈ Word.freeBits, tag.toNat.testBit i = false) →
      ∃ written, (Write.putObject object).Makes written ∧ written <+: payload
  scalar : ∀ data, readScalar payload = .ok data ↔
    ∃ written, (Write.putScalar data).Makes written ∧ written <+: payload
  refused : (∀ e, Object.read payload = .error e → e.kind = .corrupt) ∧
    ∀ e, readScalar payload = .error e → e.kind = .corrupt

/-- Payloads that are not too long for a value are read as objects and as scalars where such a
value is written at their front, and only there. Whatever follows a value, reading undoes
writing. -/
theorem values_read_as_written (payload : Bytes) (short : payload.length ≤ Limit.value) :
    ReadAsWritten payload ∧
    (∀ object written rest, (Write.putObject object).Makes written →
      Object.read (written ++ rest) = .ok object) ∧
    ∀ data written rest, (Write.putScalar data).Makes written →
      readScalar (written ++ rest) = .ok data := by
  refine ⟨?_, ?_, ?_⟩
  · constructor
    · exact fun object => Object.read_iff_stands short
    · intro object other stands stands'
      have same := (Object.read_of_stands stands).symm.trans (Object.read_of_stands stands')
      exact Except.ok.inj same
    · intro object tag read second clear
      exact Object.written_of_clear ((Object.read_iff_stands short).mp read) second clear
    · exact fun data => readScalar_iff_written short
    · exact ⟨Object.onlyCorrupt_read payload, onlyCorrupt_readScalar payload⟩
  · intro object written rest makes
    obtain ⟨fits, rfl⟩ := Write.makes_putObject_iff.mp makes
    exact Object.read_append fits rest
  · intro data written rest makes
    obtain ⟨fits, rfl⟩ := Write.makes_putScalar_iff.mp makes
    exact readScalar_append fits rest

/-- An object with one key twice and one empty value. All free bits of its count word are set,
and a byte follows it. -/
theorem values_read_as_written_free_bits :
    let payload : Bytes := [108, 0, 0, 0, 2, 0, 0, 0xF0, 1, 0, 0, 0, 1, 0, 0, 0, 0, 0, 0, 0, 1, 0, 0, 0,
      107, 107, 118, 9]
    payload.length ≤ Limit.value ∧
    Object.read payload = .ok ⟨[([107], []), ([107], [118])]⟩ ∧
    Object.Stands ⟨[([107], []), ([107], [118])]⟩ payload ∧ ReadAsWritten payload := by
  intro payload
  have short : payload.length ≤ Limit.value := by decide
  obtain ⟨reads, -⟩ := values_read_as_written payload short
  have read : Object.read payload = .ok ⟨[([107], []), ([107], [118])]⟩ := rfl
  exact ⟨short, read, (reads.object _).mp read, reads⟩

end TupleWire
