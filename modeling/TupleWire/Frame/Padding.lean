import TupleWire.Frame.Buffer

/-! Alignment of the end of a buffer. -/
namespace TupleWire

/-- The number of bytes from `pos` to the next multiple of `n`; zero when `n` is zero. -/
def padding (pos n : Nat) : Nat :=
  if n = 0 then 0 else (n - pos % n) % n

theorem padding_lt {n : Nat} (pos : Nat) (h : 0 < n) : padding pos n < n := by
  rw [padding, if_neg (by omega)]
  exact Nat.mod_lt _ h

theorem dvd_add_padding {n : Nat} (pos : Nat) (h : 0 < n) : n ∣ pos + padding pos n := by
  have split := Nat.div_add_mod pos n
  have rem := Nat.mod_lt pos h
  rw [padding, if_neg (by omega)]
  by_cases whole : pos % n = 0
  · rw [whole, Nat.sub_zero, Nat.mod_self]
    exact Nat.dvd_of_mod_eq_zero whole
  · rw [Nat.mod_eq_of_lt (show n - pos % n < n by omega)]
    exact ⟨pos / n + 1, by rw [Nat.mul_add]; omega⟩

theorem padding_of_dvd {n pos : Nat} (whole : n ∣ pos) : padding pos n = 0 := by
  rw [padding]
  split
  · rfl
  · rw [Nat.mod_eq_zero_of_dvd whole, Nat.sub_zero, Nat.mod_self]

/-- Appends zero bytes up to the next multiple of `n`, and returns their number. A program makes
the zeros before it asks for room; if there are more than memory can be asked for, it stops over
that, room or not, and comes to no write (see `Draft.align`). -/
def Write.align (n : Nat) : Write Nat := withBuffer fun buf => do
  let pad := padding buf.size n
  requireRoom pad
  edit (·.append (List.replicate pad 0))
  return pad

theorem Write.on_align (n : Nat) (buf : Buffer) :
    (align n).on buf =
      match (put (List.replicate (padding buf.size n) 0)).on buf with
      | (.ok (), next) => (.ok (padding buf.size n), next)
      | (.error e, next) => (.error e, next) := by
  simp only [align, put, on_withBuffer, on_bind, on_requireRoom, on_edit, List.length_replicate]
  split <;> rfl

end TupleWire
