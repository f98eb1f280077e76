import ContractHost.Word

/-!
# Addresses

An address names an account; it is a string of 20 bytes.  In a word it stands at the end, behind
twelve zero bytes (`Address.toWord`), and `Address.ofWord` takes the end of any word.
-/

namespace ContractHost

abbrev Address := FixedBytes 20

namespace Address

instance : Std.TransOrd Address := FixedBytes.instTransOrd

instance : Std.LawfulEqOrd Address := FixedBytes.instLawfulEqOrd

def zero : Address := FixedBytes.zero 20

/-- The word that ends in the address and is zero before it. -/
def toWord (address : Address) : Word :=
  FixedBytes.rightAligned address.toList (by simp)

def ofWord (word : Word) : Address := ⟨word.toList.drop 12, by simp⟩

/-- The first 20 bytes, or a fault if there are fewer; what follows them is ignored. -/
def ofBytes (bytes : Bytes) : Except Fault Address :=
  match FixedBytes.ofStart? 20 bytes with
  | some address => .ok address
  | none => .error (.malformed "address" 20 bytes.length)

/-- Reads exactly forty hexadecimal digits behind at most one mark `0x`. -/
def parse (text : String) (codec : HexCodec := Hex.codec) : Except Fault Address :=
  let digits := Hex.withoutMark text
  match codec.decode digits with
  | .error _ => .error (.malformed "address hex" 40 (utf8 digits).length)
  | .ok bytes =>
    if bytes.length = 20 then ofBytes bytes
    else .error (.malformed "address" 20 bytes.length)

end Address

end ContractHost
