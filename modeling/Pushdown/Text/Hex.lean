/-!
# Bytes as hexadecimal digits

A byte is written as two digits, high half first, in small letters. Reading takes digits in either
case and says what is wrong with a text that is none: an odd number of digits, or else its first
bad byte and where it stands.
-/

namespace Pushdown.Text.Hex

/-- The digit of a number below sixteen. -/
def digit (n : Nat) : Char :=
  if n < 10 then Char.ofNat (48 + n) else Char.ofNat (87 + n)

/-- The two digits of a byte. -/
def ofByte (b : UInt8) : List Char :=
  [digit (b.toNat / 16), digit (b.toNat % 16)]

/-- The digits of a byte string. -/
def ofBytes (bytes : List UInt8) : List Char :=
  bytes.flatMap ofByte

/-- The number a digit stands for, in either case. -/
def digitValue? (c : Char) : Option Nat :=
  if c.isDigit then some (c.toNat - 48)
  else if 'a' ≤ c && c ≤ 'f' then some (c.toNat - 87)
  else if 'A' ≤ c && c ≤ 'F' then some (c.toNat - 55)
  else none

/-- Why a text is no byte string. -/
inductive Error where
  /-- the text has an odd number of bytes -/
  | oddLength
  /-- the first byte that is no digit, as the character of that code, and how many stand before -/
  | badDigit (c : Char) (position : Nat)
  deriving DecidableEq, Repr

/-- The bytes that the digits spell, the first of them standing at `position`. -/
def readPairs (position : Nat) : List Char → Except Error (List UInt8)
  | [] => .ok []
  | [_] => .error .oddLength
  | c :: d :: rest =>
    match digitValue? c with
    | none => .error (.badDigit c position)
    | some high =>
      match digitValue? d with
      | none => .error (.badDigit d (position + 1))
      | some low => (readPairs (position + 2) rest).map (UInt8.ofNat (16 * high + low) :: ·)

/-- The bytes of a text in UTF-8, each as the character of that code. -/
def byteChars (s : List Char) : List Char :=
  s.flatMap fun c => (String.utf8EncodeChar c).map fun b => Char.ofNat b.toNat

/-- Reads a byte string. The length is looked at before any digit. -/
def read (s : List Char) : Except Error (List UInt8) :=
  let bytes := byteChars s
  if bytes.length % 2 = 1 then .error .oddLength else readPairs 0 bytes

end Pushdown.Text.Hex
