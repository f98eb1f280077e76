import ContractHost.Bytes.Basic

/-!
# Hexadecimal text

A byte is written as two hexadecimal digits, the high one first.  Words and addresses are written
and read through a codec of such texts, which is a parameter of theirs (`HexCodec`); the program runs
with `Hex.codec`.

* `Hex.encode` writes a byte string, in lower-case digits.
* `Hex.decode` reads one, from digits of both cases, or says why the text is not the form of any
  (`HexError`).  A text is read as its UTF-8 bytes, so that lengths and positions in messages count
  bytes, and a character outside ASCII is one that is no digit.
* `Hex.withoutMark` drops the mark `0x` in front of the digits, if it is there.
-/

namespace ContractHost

/-- The UTF-8 bytes of a text. -/
def utf8 (text : String) : Bytes := text.toUTF8.data.toList

/-- Why a text is not the hexadecimal form of a byte string. -/
inductive HexError where
  /-- The digits do not pair up. -/
  | oddLength
  /-- The byte at this position is not a digit. -/
  | invalidDigit (byte : UInt8) (position : Nat)
deriving DecidableEq

/-- What is asked of a codec of hexadecimal texts. -/
structure HexCodec where
  encode : Bytes → String
  decode : String → Except HexError Bytes

namespace Hex

/-! ## Writing -/

/-- The digit of a number below sixteen. -/
def digit (value : UInt8) : Char :=
  Char.ofNat (if value < 10 then 48 + value.toNat else 87 + value.toNat)

/-- The two digits of each byte, one byte after the other. -/
def encode (bytes : Bytes) : String :=
  String.ofList (bytes.flatMap fun byte => [digit (byte / 16), digit (byte % 16)])

/-! ## Reading -/

/-- The value of a digit, given as its ASCII byte. -/
def digitValue? (byte : UInt8) : Option UInt8 :=
  if 48 ≤ byte ∧ byte ≤ 57 then some (byte - 48)
  else if 97 ≤ byte ∧ byte ≤ 102 then some (byte - 87)
  else if 65 ≤ byte ∧ byte ≤ 70 then some (byte - 55)
  else none

/-- Reads pairs of digits; `position` is that of the first byte.  The first byte that is no digit
is the one reported. -/
def decodePairs (position : Nat) : Bytes → Except HexError Bytes
  | high :: low :: rest =>
    match digitValue? high, digitValue? low with
    | none, _ => .error (.invalidDigit high position)
    | some _, none => .error (.invalidDigit low (position + 1))
    | some h, some l => (decodePairs (position + 2) rest).map ((16 * h + l) :: ·)
  | _ => .ok []

/-- The byte string that the digits stand for.  An odd count is reported before any byte that is
no digit. -/
def decode (digits : Bytes) : Except HexError Bytes :=
  if digits.length % 2 = 1 then .error .oddLength else decodePairs 0 digits

/-- The codec that the program runs with. -/
def codec : HexCodec where
  encode := encode
  decode text := decode (utf8 text)

/-! ## The mark in front -/

/-- The characters without the mark `0x` in front; a second mark stays. -/
def unmarked : List Char → List Char
  | '0' :: 'x' :: rest => rest
  | chars => chars

def withoutMark (text : String) : String := String.ofList (unmarked text.toList)

end Hex

/-! ## Messages -/

/-- A character below U+0100 between single quotes.  The quote, the backslash and the characters
without a shape of their own are written as escapes. -/
def quotedChar (c : Char) : String :=
  let body :=
    if c = '\'' then "\\'"
    else if c = '\\' then "\\\\"
    else if c = '\t' then "\\t"
    else if c = '\n' then "\\n"
    else if c = '\r' then "\\r"
    else if c.toNat = 0 then "\\0"
    else if c.toNat < 0x20 ∨ (0x7f ≤ c.toNat ∧ c.toNat ≤ 0xa0) ∨ c.toNat = 0xad then
      "\\u\x7b" ++ String.ofList (Nat.toDigits 16 c.toNat) ++ "\x7d"
    else String.singleton c
  "'" ++ body ++ "'"

/-- The reason in words.  A byte is shown as the character with its number. -/
def HexError.message : HexError → String
  | oddLength => "Odd number of digits"
  | invalidDigit byte position =>
    "Invalid character " ++ quotedChar (Char.ofNat byte.toNat) ++ " at position " ++
      toString position

/-! ## Fixed widths -/

/-- The digits of a byte string of fixed width, without a mark. -/
def FixedBytes.toHex {n : Nat} (b : FixedBytes n) (codec : HexCodec := Hex.codec) : String :=
  codec.encode b.toList

end ContractHost
