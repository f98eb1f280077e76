import ContractHost.Bytes.Basic

/-!
# Numbers as byte strings

A natural number is written in base 256 with a fixed number of digits, one byte each.  Two orders
occur: integer fields of a layout put the **least** significant byte first, words and balances put
the **most** significant byte first.  Writing keeps the low `width` bytes of the number and drops
the rest, as a machine word does.
-/

namespace ContractHost.Bytes

/-- The low `width` base-256 digits of a number, least significant first. -/
def littleEndian : (width : Nat) → Nat → Bytes
  | 0, _ => []
  | width + 1, n => UInt8.ofNat n :: littleEndian width (n / 256)

/-- The low `width` base-256 digits of a number, most significant first. -/
def bigEndian (width n : Nat) : Bytes := (littleEndian width n).reverse

/-- The number whose base-256 digits are the given bytes, least significant first. -/
def littleEndianValue : Bytes → Nat
  | [] => 0
  | b :: rest => b.toNat + 256 * littleEndianValue rest

/-- The number whose base-256 digits are the given bytes, most significant first. -/
def bigEndianValue (bytes : Bytes) : Nat := littleEndianValue bytes.reverse

@[simp] theorem length_littleEndian (width n : Nat) : (littleEndian width n).length = width := by
  induction width generalizing n with
  | zero => rfl
  | succ width ih => simp [littleEndian, ih]

@[simp] theorem length_bigEndian (width n : Nat) : (bigEndian width n).length = width := by
  simp [bigEndian]

end ContractHost.Bytes
