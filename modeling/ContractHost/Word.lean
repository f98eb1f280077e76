import ContractHost.Bytes.Hex
import ContractHost.Bytes.Numeral
import ContractHost.Fault

/-!
# Words

A word is a string of 32 bytes.  Storage keys and values, hashes and amounts of 256 bits are words.
Read as a number, its first byte is the most significant one (`Word.toNat`), and a shorter byte
string becomes a word by zeros in front, which leaves its value alone.
-/

namespace ContractHost

abbrev Word := FixedBytes 32

namespace Word

instance : Std.TransOrd Word := FixedBytes.instTransOrd

instance : Std.LawfulEqOrd Word := FixedBytes.instLawfulEqOrd

instance : LawfulBEq Word := inferInstance

def zero : Word := FixedBytes.zero 32

/-- The number that the word denotes, most significant byte first. -/
def toNat (word : Word) : Nat := Bytes.bigEndianValue word.toList

/-- The word that denotes a number, which loses whatever lies beyond 256 bits. -/
def ofNat (n : Nat) : Word := ⟨Bytes.bigEndian 32 n, Bytes.length_bigEndian 32 n⟩

/-- The number that the word denotes, if it has 128 bits. -/
def toNat128? (word : Word) : Option Nat :=
  if (word.toList.take 16).all (· == 0) then
    some (Bytes.bigEndianValue (word.toList.drop 16))
  else none

/-- The low 32 bits of the number; everything above is ignored. -/
def low32 (word : Word) : UInt32 := UInt32.ofNat (Bytes.bigEndianValue (word.toList.drop 28))

/-- The word with the given bytes at its end, or a fault if there are more than 32. -/
def ofBytes (bytes : Bytes) : Except Fault Word :=
  if fits : bytes.length ≤ 32 then .ok (FixedBytes.rightAligned bytes fits)
  else .error (.malformed "32-byte word" 32 bytes.length)

/-- Reads hexadecimal digits behind at most one mark `0x`.  Missing digits are zeros in front, so
that `0x2a` is forty-two and no digits at all are zero. -/
def parse (text : String) (codec : HexCodec := Hex.codec) : Except Fault Word :=
  let digits := Hex.withoutMark text
  let length := (utf8 digits).length
  -- an odd count of digits is completed to pairs by the digit zero
  let pairs := if length % 2 = 1 then "0" ++ digits else digits
  match codec.decode pairs with
  | .error _ => .error (.malformed "word hex" 64 length)
  | .ok bytes => ofBytes bytes

end Word

end ContractHost
