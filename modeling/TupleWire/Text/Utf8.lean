import TupleWire.Bytes

/-! Bytes read as text. A byte string splits into characters and into stray
stretches, each the longest beginning of a character that its next byte breaks off. -/
namespace TupleWire.Text

/-- A stretch of a byte string: one character, or bytes that complete none. -/
inductive Piece where
  | char (c : Char)
  | stray (bytes : Bytes)
  deriving DecidableEq, Repr

/-- A character begun and not yet complete: the bytes seen, the value they give,
the bytes still owed, and the range in which the next one has to lie. -/
structure Opening where
  seen : Bytes
  value : Nat
  owed : Nat
  low : UInt8 := 0x80
  high : UInt8 := 0xBF

/-- What the first byte of a stretch says. -/
inductive Lead where
  | whole (piece : Piece)
  | opens (opening : Opening)

def lead (b : UInt8) : Lead :=
  let n := b.toNat
  if n < 0x80 then .whole (.char (Char.ofNat n))
  else if n < 0xC2 then .whole (.stray [b])
  else if n < 0xE0 then .opens { seen := [b], value := n - 0xC0, owed := 1 }
  else if n = 0xE0 then .opens { seen := [b], value := 0, owed := 2, low := 0xA0 }
  else if n = 0xED then .opens { seen := [b], value := 0xD, owed := 2, high := 0x9F }
  else if n < 0xF0 then .opens { seen := [b], value := n - 0xE0, owed := 2 }
  else if n = 0xF0 then .opens { seen := [b], value := 0, owed := 3, low := 0x90 }
  else if n < 0xF4 then .opens { seen := [b], value := n - 0xF0, owed := 3 }
  else if n = 0xF4 then .opens { seen := [b], value := 4, owed := 3, high := 0x8F }
  else .whole (.stray [b])

/-- Whether the byte continues the character. -/
def Opening.accepts (o : Opening) (b : UInt8) : Bool :=
  o.low ≤ b && b ≤ o.high

def Opening.push (o : Opening) (b : UInt8) : Opening :=
  { seen := o.seen ++ [b], value := o.value * 64 + b.toNat % 64, owed := o.owed - 1 }

/-- The pieces of a byte string that stands after the given opening. A byte that
breaks an opening off is read again as the first byte of the next stretch. -/
def piecesFrom : Option Opening → Bytes → List Piece
  | none, [] => []
  | some o, [] => [.stray o.seen]
  | none, b :: rest =>
      match lead b with
      | .whole piece => piece :: piecesFrom none rest
      | .opens o => piecesFrom (some o) rest
  | some o, b :: rest =>
      if o.accepts b then
        let next := o.push b
        if next.owed = 0 then .char (Char.ofNat next.value) :: piecesFrom none rest
        else piecesFrom (some next) rest
      else
        .stray o.seen ::
          match lead b with
          | .whole piece => piece :: piecesFrom none rest
          | .opens o => piecesFrom (some o) rest

def pieces (bytes : Bytes) : List Piece :=
  piecesFrom none bytes

/-- The character that stands for a stray stretch. -/
def replacement : Char := Char.ofNat 0xFFFD

def Piece.toChar : Piece → Char
  | .char c => c
  | .stray _ => replacement

/-- The text of a byte string, one replacement character for each stray stretch. It stands in for
whatever conversion is used: no result on all byte strings depends on it. -/
def lossy (bytes : Bytes) : String :=
  String.ofList ((pieces bytes).map Piece.toChar)

end TupleWire.Text
