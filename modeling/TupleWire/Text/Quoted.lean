import TupleWire.Text.Utf8
import TupleWire.Text.Printable

/-! The quoted form of a byte string, for messages: plain text between double quotes,
with an escape for each byte or character that would not show as itself. -/
namespace TupleWire.Text

/-- The lower-case hexadecimal digits of a number, without leading zeros. -/
def hexDigits (n : Nat) : String :=
  String.ofList (Nat.toDigits 16 n)

def escapedByte (b : UInt8) : String :=
  (if b.toNat < 16 then "\\x0" else "\\x") ++ hexDigits b.toNat

/-- NUL, tab, line feed, carriage return, both quotes and the backslash have short
escapes. Other controls are escaped as bytes, other hidden characters by code point. -/
def escapedChar (c : Char) : String :=
  match c.toNat with
  | 0x00 => "\\0"
  | 0x09 => "\\t"
  | 0x0A => "\\n"
  | 0x0D => "\\r"
  | 0x22 => "\\\x22"
  | 0x27 => "\\\x27"
  | 0x5C => "\\\\"
  | n =>
      if n < 0x20 || n = 0x7F then escapedByte (UInt8.ofNat n)
      else if n < 0x7F || printable c then c.toString
      else "\\u\x7b" ++ hexDigits n ++ "\x7d"

def Piece.quoted : Piece → String
  | .char c => escapedChar c
  | .stray bytes => String.join (bytes.map escapedByte)

def quoted (bytes : Bytes) : String :=
  "\x22" ++ String.join ((pieces bytes).map Piece.quoted) ++ "\x22"

end TupleWire.Text
