/-! Byte strings and the 32-bit words inside them. A word is four bytes, least
significant first; a length is read from a word by its sign. -/
namespace TupleWire

/-- A string of bytes, first byte first. -/
abbrev Bytes := List UInt8

abbrev Word := UInt32

def wordSize : Nat := 4

namespace Word

def ofNat (n : Nat) : Word := UInt32.ofNat n

def toBytes (w : Word) : Bytes :=
  [UInt8.ofNat w.toNat, UInt8.ofNat (w.toNat / 0x100), UInt8.ofNat (w.toNat / 0x10000),
    UInt8.ofNat (w.toNat / 0x1000000)]

def ofBytes (a b c d : UInt8) : Word :=
  .ofNat (a.toNat + b.toNat * 0x100 + c.toNat * 0x10000 + d.toNat * 0x1000000)

/-- The two's complement reading of a word. -/
def signed (w : Word) : Int :=
  if w.toNat < 0x80000000 then w.toNat else (w.toNat : Int) - 0x100000000

/-- The length a word stands for; a negative word stands for none. -/
def length? (w : Word) : Option Nat :=
  if w.toNat < 0x80000000 then some w.toNat else none

/-- The length of a value frame: four times it is stored, so two low bits are zero. -/
def valueLength? (w : Word) : Option Nat :=
  if w.toNat % 4 = 0 then some (w.toNat / 4) else none

/-- The word of an integer, modulo the size of a word. -/
def ofInt (n : Int) : Word := .ofNat (n % 0x100000000).toNat

theorem length_toBytes (w : Word) : w.toBytes.length = wordSize := rfl

theorem ofBytes_toBytes (w : Word) :
    ofBytes (UInt8.ofNat w.toNat) (UInt8.ofNat (w.toNat / 0x100))
      (UInt8.ofNat (w.toNat / 0x10000)) (UInt8.ofNat (w.toNat / 0x1000000)) = w := by
  have bound := w.toNat_lt
  apply UInt32.toNat_inj.mp
  simp only [ofBytes, ofNat, UInt8.toNat_ofNat', UInt32.toNat_ofNat']
  omega

theorem toNat_ofBytes (a b c d : UInt8) :
    (ofBytes a b c d).toNat = a.toNat + b.toNat * 0x100 + c.toNat * 0x10000 + d.toNat * 0x1000000 := by
  have boundA := a.toNat_lt
  have boundB := b.toNat_lt
  have boundC := c.toNat_lt
  have boundD := d.toNat_lt
  simp only [ofBytes, ofNat, UInt32.toNat_ofNat']
  omega

theorem toBytes_ofBytes (a b c d : UInt8) : (ofBytes a b c d).toBytes = [a, b, c, d] := by
  have boundA := a.toNat_lt
  have boundB := b.toNat_lt
  have boundC := c.toNat_lt
  have boundD := d.toNat_lt
  simp only [toBytes, toNat_ofBytes, List.cons.injEq, ← UInt8.toNat_inj, UInt8.toNat_ofNat',
    and_true]
  omega

theorem toNat_ofNat {n : Nat} (h : n < 0x100000000) : (ofNat n).toNat = n :=
  UInt32.toNat_ofNat_of_lt' h

theorem length?_ofNat {n : Nat} (h : n < 0x80000000) : (ofNat n).length? = some n := by
  rw [length?, toNat_ofNat (by omega), if_pos h]

theorem valueLength?_ofNat {n : Nat} (h : 4 * n < 0x100000000) :
    (ofNat (4 * n)).valueLength? = some n := by
  rw [valueLength?, toNat_ofNat h, if_pos (by omega), Nat.mul_div_cancel_left n (by decide)]

end Word

def takeWord? : Bytes → Option (Word × Bytes)
  | a :: b :: c :: d :: rest => some (Word.ofBytes a b c d, rest)
  | _ => none

/-- The word at a position, where all four of its bytes are present. -/
def wordAt? (bytes : Bytes) (pos : Nat) : Option Word :=
  (takeWord? (bytes.drop pos)).map Prod.fst

def takeBytes? (n : Nat) (bytes : Bytes) : Option (Bytes × Bytes) :=
  let (front, rest) := bytes.splitAt n
  if front.length = n then some (front, rest) else none

def takeWords? : Nat → Bytes → Option (List Word × Bytes)
  | 0, bytes => some ([], bytes)
  | n + 1, bytes => do
      let (w, rest) ← takeWord? bytes
      let (ws, rest) ← takeWords? n rest
      return (w :: ws, rest)

theorem takeWord?_append (w : Word) (rest : Bytes) :
    takeWord? (w.toBytes ++ rest) = some (w, rest) := by
  change some (Word.ofBytes _ _ _ _, rest) = some (w, rest)
  rw [Word.ofBytes_toBytes]

theorem takeWord?_eq_some_iff {bytes rest : Bytes} {w : Word} :
    takeWord? bytes = some (w, rest) ↔ bytes = w.toBytes ++ rest := by
  constructor
  · intro h
    match bytes, h with
    | a :: b :: c :: d :: _, h =>
        obtain ⟨rfl, rfl⟩ := Prod.mk.inj (Option.some.inj h)
        rw [Word.toBytes_ofBytes]
        rfl
  · rintro rfl
    exact takeWord?_append w rest

theorem takeBytes?_append (front rest : Bytes) :
    takeBytes? front.length (front ++ rest) = some (front, rest) := by
  simp [takeBytes?]

theorem takeBytes?_eq_some_iff {n : Nat} {bytes front rest : Bytes} :
    takeBytes? n bytes = some (front, rest) ↔ bytes = front ++ rest ∧ front.length = n := by
  constructor
  · intro h
    simp only [takeBytes?, List.splitAt_eq] at h
    split at h
    · next full =>
        obtain ⟨rfl, rfl⟩ := Prod.mk.inj (Option.some.inj h)
        exact ⟨(List.take_append_drop n bytes).symm, full⟩
    · cases h
  · rintro ⟨rfl, rfl⟩
    exact takeBytes?_append front rest

theorem takeWords?_append (ws : List Word) (rest : Bytes) :
    takeWords? ws.length (ws.flatMap Word.toBytes ++ rest) = some (ws, rest) := by
  induction ws with
  | nil => rfl
  | cons w ws ih =>
      simp [takeWords?, takeWord?_append, ih]

theorem takeWords?_eq_some_iff {n : Nat} {bytes rest : Bytes} {ws : List Word} :
    takeWords? n bytes = some (ws, rest) ↔
      bytes = ws.flatMap Word.toBytes ++ rest ∧ ws.length = n := by
  constructor
  · intro h
    induction n generalizing bytes ws with
    | zero =>
        obtain ⟨rfl, rfl⟩ := Prod.mk.inj (Option.some.inj h)
        exact ⟨rfl, rfl⟩
    | succ n ih =>
        simp only [takeWords?, Option.bind_eq_bind, Option.bind_eq_some_iff] at h
        obtain ⟨⟨w, tail⟩, first, ⟨ws, last⟩, others, h⟩ := h
        obtain ⟨rfl, rfl⟩ := Prod.mk.inj (Option.some.inj h)
        obtain ⟨rfl, rfl⟩ := ih others
        rw [takeWord?_eq_some_iff] at first
        exact ⟨by simp [first], rfl⟩
  · rintro ⟨rfl, rfl⟩
    exact takeWords?_append ws rest

end TupleWire
