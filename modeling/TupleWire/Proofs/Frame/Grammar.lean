import TupleWire.Proofs.Frame.Corrupting

/-! The grammar of row frames. Reading accepts a byte string exactly where the grammar finds
one row frame at its front, and what stands behind that frame has no say. -/
namespace TupleWire

theorem mapM_id_error {ε α : Type} (items : List α) (e : ε) :
    (items.map Except.ok ++ [Except.error e]).mapM (m := Except ε) id = .error e := by
  induction items with
  | nil => rfl
  | cons item items ih =>
      rw [List.map_cons, List.cons_append, List.mapM_cons, ih]
      rfl

namespace RowFrame

/-- The bytes begin with a signed word that announces a row frame, and all of it is there. -/
structure Announced (bytes : Bytes) (total : Nat) : Prop where
  counted : (wordAt? bytes 0).map Word.signed = some (total : Int)
  least : 2 * wordSize ≤ total
  present : total ≤ bytes.length

/-- The bytes begin with a row frame: the word that announces it, column frames and nothing
else, and a zero word. -/
structure Begins (bytes : Bytes) (total : Nat) (parts : List Bytes) : Prop
    extends Announced bytes total where
  split : Splits ((bytes.take (total - wordSize)).drop wordSize) parts
  ended : (bytes.take total).drop (total - wordSize) = (0 : Word).toBytes

theorem read_of_word {bytes : Bytes} {w : Word} (first : wordAt? bytes 0 = some w) :
    read bytes =
      match w.length? with
      | none => .error (.corruptAt .rowLengthTruncated 0)
      | some total =>
          if total < 2 * wordSize then .error (.corruptAt .rowLengthOutOfRange 0)
          else if (bytes.take total).length = total then check ⟨bytes.take total⟩
          else .error (.corruptAt .rowLengthOutOfRange 0) := by
  rw [read, first]
  simp only [Option.bind_some]
  rcases w.length? with _ | total
  · rfl
  · simp only
    by_cases least : total < 2 * wordSize
    · rw [if_pos least, if_pos least]
    · rw [if_neg least, if_neg least, takeBytes?, List.splitAt_eq]
      simp only
      by_cases present : (bytes.take total).length = total
      · rw [if_pos present, if_pos present]
      · rw [if_neg present, if_neg present]

theorem Announced.word {bytes : Bytes} {total : Nat} (h : Announced bytes total) :
    ∃ w, wordAt? bytes 0 = some w ∧ w.signed = total :=
  Option.map_eq_some_iff.mp h.counted

theorem Announced.unique {bytes : Bytes} {total other : Nat} (h : Announced bytes total)
    (h' : Announced bytes other) : other = total := by
  have same := h'.counted.symm.trans h.counted
  rwa [Option.some.injEq, Int.natCast_inj] at same

theorem Announced.read {bytes : Bytes} {total : Nat} (h : Announced bytes total) :
    RowFrame.read bytes = check ⟨bytes.take total⟩ := by
  obtain ⟨w, first, counted⟩ := h.word
  rw [read_of_word first, Word.length?_eq_some_iff.mpr counted]
  simp only
  rw [if_neg (Nat.not_lt.mpr h.least), if_pos (List.length_take_of_le h.present)]

theorem check_of_fails {frame : RowFrame} {body : Bytes} {parts : List Bytes}
    (h : frame.walk.Fails body parts) :
    ∃ corruption, frame.check = .error (.corruptAt corruption (wordSize + body.length)) := by
  obtain ⟨corruption, behind, -, drained⟩ := h
  refine ⟨corruption, ?_⟩
  rw [check, drained]
  simp only
  rw [Walk.found, mapM_id_error]
  rfl

/-- A walk that ends passes the check where its zero word is the last word of the frame. -/
theorem check_of_ends {frame : RowFrame} {body : Bytes} {parts : List Bytes}
    (h : frame.walk.Ends body parts) :
    frame.check =
      if wordSize + body.length + wordSize = frame.size then .ok frame
      else .error (.corruptAt .rowLengthDisagrees (wordSize + body.length)) := by
  obtain ⟨behind, -, drained⟩ := h
  rw [check, drained]
  simp only
  rw [Walk.found, mapM_id_ok]
  rfl

theorem check_eq_ok {frame other : RowFrame} (h : frame.check = .ok other) :
    other = frame ∧ ∃ body parts, Splits body parts ∧ frame.walk.Ends body parts ∧
      wordSize + body.length + wordSize = frame.size := by
  obtain ⟨body, parts, splits, course⟩ := frame.walk.drain_splits rfl
  rcases course with ends | fails
  · rw [check_of_ends ends] at h
    split at h
    · next whole =>
        cases h
        exact ⟨rfl, body, parts, splits, ends, whole⟩
    · cases h
  · obtain ⟨corruption, refused⟩ := check_of_fails fails
    rw [refused] at h
    cases h

theorem announced_of_read {bytes : Bytes} {frame : RowFrame} (h : RowFrame.read bytes = .ok frame) :
    Announced bytes frame.size ∧ frame = ⟨bytes.take frame.size⟩ := by
  cases first : wordAt? bytes 0 with
  | none =>
      rw [RowFrame.read, first] at h
      cases h
  | some w =>
      rw [read_of_word first] at h
      split at h
      · cases h
      · next total length =>
          split at h
          · cases h
          · next least =>
              split at h
              · next present =>
                  obtain ⟨rfl, -⟩ := check_eq_ok h
                  have size : size ⟨bytes.take total⟩ = total := present
                  rw [size]
                  refine ⟨⟨?_, Nat.not_lt.mp least, ?_⟩, rfl⟩
                  · rw [first, Option.map_some, Word.length?_eq_some_iff.mp length]
                  · rw [← present]
                    exact (List.take_sublist _ _).length_le
              · cases h

theorem Begins.behind {bytes : Bytes} {total : Nat} {parts : List Bytes}
    (h : Begins bytes total parts) :
    (bytes.take total).drop wordSize =
      (bytes.take (total - wordSize)).drop wordSize ++ (0 : Word).toBytes := by
  have least := h.least
  have present := h.present
  have front : (bytes.take total).take (total - wordSize) = bytes.take (total - wordSize) := by
    rw [List.take_take, Nat.min_eq_left (Nat.sub_le _ _)]
  have length : wordSize ≤ (bytes.take (total - wordSize)).length := by
    rw [List.length_take_of_le (by omega)]
    omega
  have whole := List.take_append_drop (total - wordSize) (bytes.take total)
  rw [front, h.ended] at whole
  rw [← whole, List.drop_append_of_le_length length]

theorem Begins.ends {bytes : Bytes} {total : Nat} {parts : List Bytes}
    (h : Begins bytes total parts) :
    (walk ⟨bytes.take total⟩).Ends ((bytes.take (total - wordSize)).drop wordSize) parts := by
  have found := Walk.ends_of_splits h.split [] wordSize
  rw [List.append_nil, ← h.behind] at found
  exact found

theorem begins_of_ends {bytes body : Bytes} {total : Nat} {parts : List Bytes}
    (h : Announced bytes total) (splits : Splits body parts)
    (ends : (walk ⟨bytes.take total⟩).Ends body parts)
    (whole : wordSize + body.length + wordSize = total) : Begins bytes total parts := by
  obtain ⟨behind, rest, -⟩ := ends
  have front : (bytes.take total).drop wordSize = body ++ ((0 : Word).toBytes ++ behind) := rest
  have length := congrArg List.length front
  rw [List.length_drop, List.length_take_of_le h.present, List.length_append, List.length_append,
    Word.length_toBytes] at length
  obtain rfl : behind = [] := List.eq_nil_of_length_eq_zero (by omega)
  rw [List.append_nil] at front
  have cut : total - wordSize = wordSize + body.length := by omega
  refine ⟨h, ?_, ?_⟩
  · have middle : (bytes.take (total - wordSize)).drop wordSize = body := by
      rw [← Nat.min_eq_left (Nat.sub_le total wordSize), ← List.take_take, cut, List.drop_take, front,
        Nat.add_sub_cancel_left, List.take_left]
    rwa [middle]
  · rw [cut, ← List.drop_drop, front, List.drop_left]

theorem begins_of_read {bytes : Bytes} {frame : RowFrame} (h : RowFrame.read bytes = .ok frame) :
    ∃ parts, Begins bytes frame.size parts := by
  obtain ⟨announced, front⟩ := announced_of_read h
  rw [announced.read, ← front] at h
  obtain ⟨-, body, parts, splits, ends, whole⟩ := check_eq_ok h
  rw [front] at ends
  exact ⟨parts, begins_of_ends announced splits ends whole⟩

theorem Begins.read {bytes : Bytes} {total : Nat} {parts : List Bytes}
    (h : Begins bytes total parts) : RowFrame.read bytes = .ok ⟨bytes.take total⟩ := by
  have least := h.least
  have present := h.present
  have size : size ⟨bytes.take total⟩ = total := List.length_take_of_le present
  have whole : wordSize + ((bytes.take (total - wordSize)).drop wordSize).length + wordSize =
      total := by
    rw [List.length_drop, List.length_take_of_le (by omega)]
    omega
  rw [h.toAnnounced.read, check_of_ends h.ends, size, if_pos whole]

theorem read_congr {bytes other : Bytes} {w : Word} (first : wordAt? bytes 0 = some w)
    (first' : wordAt? other 0 = some w)
    (same : other.take w.signed.toNat = bytes.take w.signed.toNat) : read other = read bytes := by
  rw [read_of_word first, read_of_word first']
  cases length : w.length? with
  | none => rfl
  | some total =>
      rw [Word.length?_eq_some_iff.mp length, Int.toNat_natCast] at same
      simp only
      rw [same]

theorem wordAt?_take {bytes : Bytes} {n : Nat} {w : Word}
    (h : wordAt? (bytes.take n) 0 = some w) : wordAt? bytes 0 = some w := by
  obtain ⟨⟨w, rest⟩, taken, rfl⟩ := Option.map_eq_some_iff.mp h
  have front := takeWord?_eq_some_iff.mp taken
  have whole := List.take_append_drop n bytes
  rw [List.drop_zero] at front
  rw [front, List.append_assoc] at whole
  rw [wordAt?, List.drop_zero, ← whole, takeWord?_append]
  rfl

theorem read_take {bytes : Bytes} {total n : Nat} (h : Announced bytes total) (short : n < total) :
    ∃ e, read (bytes.take n) = .error e ∧ e.kind = .corrupt := by
  cases read : RowFrame.read (bytes.take n) with
  | error e => exact ⟨e, rfl, onlyCorrupt_read _ e read⟩
  | ok frame =>
      obtain ⟨announced, -⟩ := announced_of_read read
      obtain ⟨w, first, counted⟩ := announced.word
      obtain ⟨w', first', counted'⟩ := h.word
      have same := (wordAt?_take first).symm.trans first'
      have present := announced.present
      rw [List.length_take] at present
      cases same
      omega

/-- A byte string is read as a row frame exactly if it begins with one. The frame is split in
one way, and its walk gives what stands in the column frames and then nothing. Whatever else
is corrupt, each strict prefix of the frame included, and the bytes behind the announced ones
have no say. -/
theorem read_follows_grammar (bytes : Bytes) :
    ((∃ frame, RowFrame.read bytes = .ok frame) ↔ ∃ total parts, Begins bytes total parts) ∧
    (∀ total parts, Begins bytes total parts →
      RowFrame.read bytes = .ok ⟨bytes.take total⟩ ∧
      (∀ n, (walk ⟨bytes.take total⟩).nexts (parts.length + n) =
        parts.map (fun part => some (.ok (Payload.ofBytes part))) ++ List.replicate n none) ∧
      (∀ other parts', Begins bytes other parts' → other = total ∧ parts' = parts) ∧
      ∀ n < total, ∃ e, RowFrame.read (bytes.take n) = .error e ∧ e.kind = .corrupt) ∧
    (∀ e, RowFrame.read bytes = .error e → e.kind = .corrupt) ∧
    ∀ w other, wordAt? bytes 0 = some w → wordAt? other 0 = some w →
      other.take w.signed.toNat = bytes.take w.signed.toNat →
        RowFrame.read other = RowFrame.read bytes := by
  refine ⟨?_, fun total parts begins => ⟨?_, ?_, ?_, ?_⟩, onlyCorrupt_read bytes, ?_⟩
  · constructor
    · rintro ⟨frame, read⟩
      exact ⟨frame.size, begins_of_read read⟩
    · rintro ⟨total, parts, begins⟩
      exact ⟨_, begins.read⟩
  · exact begins.read
  · intro n
    obtain ⟨behind, -, drained⟩ := begins.ends
    have calls := (walk ⟨bytes.take total⟩).nexts_drain n
    rw [drained] at calls
    simpa [Walk.found, Function.comp_def] using calls
  · intro other parts' begins'
    obtain rfl := begins.unique begins'.toAnnounced
    exact ⟨rfl, begins'.split.unique begins.split⟩
  · intro n short
    exact read_take begins.toAnnounced short
  · intro w other first first' same
    exact read_congr first first' same

end RowFrame

end TupleWire
