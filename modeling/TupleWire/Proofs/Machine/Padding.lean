import TupleWire.Frame.Program
import TupleWire.Proofs.Frame.Composing
import TupleWire.Proofs.Machine.Reading

/-! Alignment, and how the machine does it. No difference falls below zero on the way to the
padding, which is the least there is; the zeros are cut out of a block that is at hand, or are made
where the block is too short for them. They are made before there is asked for room, and more of
them than memory can be asked for stop the machine. Memory that can be asked for is taken to be
there, and so is memory for what a buffer has room for. -/
namespace TupleWire

namespace Machine

/-- The difference, where it does not fall below zero. -/
def sub (a b : Nat) : Reading Nat := if b ≤ a then .ok (a - b) else trap .overflow

/-- The remainder; by zero there is none. -/
def rem (a b : Nat) : Reading Nat := if b = 0 then trap .outOfRange else .ok (a % b)

def padding (pos n : Nat) : Reading Nat :=
  if n = 0 then return 0
  else do
    let beyond ← rem pos n
    let short ← sub n beyond
    rem short n

def zeroBlock : Bytes := List.replicate 8 0

def zeros (size : Nat) : Reading Bytes :=
  if size ≤ zeroBlock.length then slice zeroBlock 0 size
  else if size ≤ Limit.allocation then return List.replicate size 0
  else trap .overflow

def align (n : Nat) (buf : Buffer) : Reading (Except Error Nat × Buffer) := do
  let pad ← padding buf.size n
  let data ← zeros pad
  let write : Write Nat := do
    Write.put data
    return pad
  return write.on buf

theorem sub_of_le {a b : Nat} (order : b ≤ a) : sub a b = .ok (a - b) := if_pos order

theorem rem_of_pos (a : Nat) {b : Nat} (positive : 0 < b) : rem a b = .ok (a % b) :=
  if_neg (Nat.ne_of_gt positive)

theorem padding_eq (pos n : Nat) : padding pos n = .ok (TupleWire.padding pos n) := by
  rw [padding, TupleWire.padding]
  split
  · rfl
  · next nonzero =>
      have positive : 0 < n := Nat.pos_of_ne_zero nonzero
      have order : pos % n ≤ n := Nat.le_of_lt (Nat.mod_lt pos positive)
      rw [rem_of_pos pos positive, ok_bind, sub_of_le order, ok_bind, rem_of_pos _ positive]

theorem zeros_of_le {size : Nat} (made : size ≤ Limit.allocation) :
    zeros size = .ok (List.replicate size 0) := by
  rw [zeros]
  split
  · next short =>
      have within : size ≤ 8 := short
      have cut : zeroBlock.take size = List.replicate size 0 := by
        rw [zeroBlock, List.take_replicate, Nat.min_eq_left within]
      rw [slice_of_le (Nat.zero_le size) short, Nat.sub_zero, List.drop_zero, cut]
  · rfl

theorem zeros_of_lt {size : Nat} (many : Limit.allocation < size) :
    zeros size = trap .overflow := by
  have short : zeroBlock.length < Limit.allocation := by decide
  rw [zeros, if_neg (by omega), if_neg (by omega)]

variable {n : Nat} {buf next : Buffer}

theorem align_of_le (made : TupleWire.padding buf.size n ≤ Limit.allocation) :
    align n buf = .ok ((Write.align n).on buf) := by
  rw [align, padding_eq, ok_bind, zeros_of_le made, ok_bind, Write.on_align]
  simp only [Write.on_bind]
  rcases (Write.put (List.replicate (TupleWire.padding buf.size n) 0)).on buf with ⟨_ | _, _⟩ <;> rfl

theorem align_of_lt (many : Limit.allocation < TupleWire.padding buf.size n) :
    align n buf = trap .overflow := by
  rw [align, padding_eq, ok_bind, zeros_of_lt many]
  rfl

/-- An alignment that comes to an answer has made its zeros, and is the write. -/
theorem align_eq_ok_iff (answer : Except Error Nat × Buffer) :
    align n buf = .ok answer ↔
      TupleWire.padding buf.size n ≤ Limit.allocation ∧ (Write.align n).on buf = answer := by
  rcases Nat.lt_or_ge Limit.allocation (TupleWire.padding buf.size n) with many | made
  · rw [align_of_lt many]
    exact iff_of_false nofun fun both => Nat.not_le_of_lt many both.1
  · rw [align_of_le made, Except.ok.injEq]
    exact (and_iff_right made).symm

/-- The step of a program is what the machine does, and it stops where the machine does. -/
theorem draft_align_eq (n : Nat) (draft : Draft) :
    draft.align n =
      match align n draft.buf with
      | .ok (.ok count, buf) => (.ok (.length count), { draft with buf })
      | .ok (.error e, buf) => (.failed e, { draft with buf })
      | .error _ => (.stale, draft) := by
  rcases Nat.lt_or_ge Limit.allocation (TupleWire.padding draft.buf.size n) with many | made
  · rw [align_of_lt many]
    exact Draft.align_of_lt many
  · rw [align_of_le made, Draft.align_of_le made, Draft.write]
    rcases (Write.align n).on draft.buf with ⟨_ | _, _⟩ <;> rfl

end Machine

namespace Write

variable {n : Nat} {buf next : Buffer}

theorem on_align_of_le (room : padding buf.size n ≤ buf.remaining) :
    (align n).on buf =
      (.ok (padding buf.size n), buf.append (List.replicate (padding buf.size n) 0)) := by
  rw [on_align, on_put, List.length_replicate, if_pos room]

theorem on_align_of_lt (full : buf.remaining < padding buf.size n) :
    (align n).on buf =
      (.error { fault := .bufferFull (padding buf.size n) buf.remaining, offset := some buf.size },
        buf) := by
  rw [on_align, on_put, List.length_replicate, if_neg (Nat.not_le_of_lt full)]

theorem align_ok_iff (count : Nat) :
    (align n).on buf = (.ok count, next) ↔
      padding buf.size n ≤ buf.remaining ∧ count = padding buf.size n ∧
        next = buf.append (List.replicate count 0) := by
  constructor
  · intro done
    rcases Nat.lt_or_ge buf.remaining (padding buf.size n) with full | room
    · rw [on_align_of_lt full] at done
      cases done
    · rw [on_align_of_le room] at done
      cases done
      exact ⟨room, rfl, rfl⟩
  · rintro ⟨room, rfl, rfl⟩
    exact on_align_of_le room

theorem dvd_size_of_align (positive : 0 < n) {count : Nat}
    (done : (align n).on buf = (.ok count, next)) : n ∣ next.size := by
  obtain ⟨-, rfl, rfl⟩ := (align_ok_iff count).mp done
  rw [Buffer.size_append, List.length_replicate]
  exact dvd_add_padding buf.size positive

theorem on_align_of_dvd (whole : n ∣ buf.size) : (align n).on buf = (.ok 0, buf) := by
  have none := padding_of_dvd whole
  refine (align_ok_iff 0).mpr ⟨?_, none.symm, buf.append_nil.symm⟩
  rw [none]
  exact Nat.zero_le _

end Write

namespace Machine

variable {n : Nat} {buf : Buffer}

/-- What it is to align the end of a buffer to the multiples of `n`: the zeros that are missing are
appended where there is room for them, and else they are refused and the bytes stay. It is done once
and for all, also for the multiples of a divisor. -/
structure Aligns (n : Nat) (buf : Buffer) : Prop where
  succeeds : (∃ count next, align n buf = .ok (.ok count, next)) ↔
    TupleWire.padding buf.size n ≤ buf.remaining
  appended : ∀ count next, align n buf = .ok (.ok count, next) →
    count = TupleWire.padding buf.size n ∧ next = buf.append (List.replicate count 0)
  refused : buf.remaining < TupleWire.padding buf.size n → ∃ e, align n buf = .ok (.error e, buf)
  again : ∀ count next d, align n buf = .ok (.ok count, next) → d ∣ n →
    align d next = .ok (.ok 0, next)

theorem aligns_of_le (positive : 0 < n) (made : TupleWire.padding buf.size n ≤ Limit.allocation) :
    Aligns n buf where
  succeeds := by
    constructor
    · rintro ⟨count, next, done⟩
      obtain ⟨-, done⟩ := (align_eq_ok_iff _).mp done
      exact ((Write.align_ok_iff count).mp done).1
    · intro room
      exact ⟨_, _, (align_eq_ok_iff _).mpr ⟨made, Write.on_align_of_le room⟩⟩
  appended count next done := by
    obtain ⟨-, done⟩ := (align_eq_ok_iff _).mp done
    exact ((Write.align_ok_iff count).mp done).2
  refused full := ⟨_, (align_eq_ok_iff _).mpr ⟨made, Write.on_align_of_lt full⟩⟩
  again count next d done divides := by
    obtain ⟨-, done⟩ := (align_eq_ok_iff _).mp done
    have whole : d ∣ next.size := Nat.dvd_trans divides (Write.dvd_size_of_align positive done)
    refine (align_eq_ok_iff _).mpr ⟨?_, Write.on_align_of_dvd whole⟩
    rw [padding_of_dvd whole]
    exact Nat.zero_le _

/-- Where the machine stops there is neither a success nor a refusal. -/
theorem Aligns.padding_le (aligns : Aligns n buf) :
    TupleWire.padding buf.size n ≤ Limit.allocation := by
  rcases Nat.lt_or_ge buf.remaining (TupleWire.padding buf.size n) with full | room
  · obtain ⟨e, refused⟩ := aligns.refused full
    exact ((align_eq_ok_iff _).mp refused).1
  · obtain ⟨count, next, done⟩ := aligns.succeeds.mpr room
    exact ((align_eq_ok_iff _).mp done).1

end Machine

/-- The padding is computed without a trap, and no shorter one would do; up to a multiple of zero
there is none. A buffer is aligned as it should be exactly if memory can be asked for the zeros that
are missing. -/
theorem aligns_iff {n : Nat} (positive : 0 < n) (buf : Buffer) :
    (∀ pos, Machine.padding pos 0 = .ok 0 ∧ padding pos 0 = 0) ∧
      (∀ pos, Machine.padding pos n = .ok (padding pos n) ∧
        IsLeast {p | n ∣ pos + p} (padding pos n)) ∧
      (Machine.Aligns n buf ↔ padding buf.size n ≤ Limit.allocation) := by
  refine ⟨fun pos => ⟨rfl, rfl⟩, fun pos => ⟨Machine.padding_eq pos n, ?_⟩, ?_, ?_⟩
  · exact padding_isLeast pos positive
  · exact Machine.Aligns.padding_le
  · exact Machine.aligns_of_le positive

/-- Eleven zeros are more than the machine has at hand. -/
theorem aligns_iff_long :
    0 < 12 ∧ Machine.Aligns 12 ⟨[255], 12⟩ ∧
      Machine.align 12 ⟨[255], 12⟩ =
        .ok (.ok 11, ⟨[255, 0, 0, 0, 0, 0, 0, 0, 0, 0, 0, 0], 12⟩) ∧
      Machine.align 6 ⟨[255, 0, 0, 0, 0, 0, 0, 0, 0, 0, 0, 0], 12⟩ =
        .ok (.ok 0, ⟨[255, 0, 0, 0, 0, 0, 0, 0, 0, 0, 0, 0], 12⟩) := by
  obtain ⟨-, -, exactly⟩ := aligns_iff (show 0 < 12 by decide) ⟨[255], 12⟩
  have aligns : Machine.Aligns 12 ⟨[255], 12⟩ := exactly.mpr (by decide)
  have done : Machine.align 12 ⟨[255], 12⟩ =
      .ok (.ok 11, ⟨[255, 0, 0, 0, 0, 0, 0, 0, 0, 0, 0, 0], 12⟩) := by decide +kernel
  exact ⟨by decide, aligns, done, aligns.again _ _ 6 done (by decide)⟩

/-- Nearly all positions are asked for as zeros. Behind one byte and a limit of 16 there is no room
for them, and the machine stops where it should refuse them; with a limit that leaves them room it
stops as well. -/
theorem not_aligns_of_endless_padding :
    let n := 18446744073709551615
    let small : Buffer := ⟨[255], 16⟩
    let large : Buffer := ⟨[255], n⟩
    (small.remaining < padding small.size n ∧ Machine.align n small = Machine.trap .overflow ∧
        ((Op.align n).run ⟨small, []⟩).1 = .stale ∧ ¬ Machine.Aligns n small) ∧
      padding large.size n ≤ large.remaining ∧ Machine.align n large = Machine.trap .overflow ∧
        ¬ Machine.Aligns n large := by
  intro n small large
  have many : Limit.allocation < padding 1 n := by decide
  have stops : (Op.align n).run ⟨small, []⟩ = (.stale, ⟨small, []⟩) :=
    Draft.align_of_lt many
  have unaligned : ∀ buf : Buffer, buf.size = 1 → ¬ Machine.Aligns n buf := fun buf size aligns =>
    Nat.not_le_of_lt many (size ▸ aligns.padding_le)
  exact ⟨⟨by decide, Machine.align_of_lt many, congrArg Prod.fst stops, unaligned small rfl⟩,
    by decide, Machine.align_of_lt many, unaligned large rfl⟩

end TupleWire
