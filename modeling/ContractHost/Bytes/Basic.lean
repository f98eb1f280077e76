/-!
# Byte strings

Everything that passes between a host and an engine is a byte string: messages, code, replies,
and the words and addresses inside them.

* `Bytes` is a byte string of any length.
* `FixedBytes n` is a byte string of exactly `n` bytes.  It is determined by its bytes
  (`FixedBytes.ext`) and ordered as a dictionary orders words, so sorted maps keyed by it list
  their entries in one well-defined order.
* `FixedBytes.rightAligned` and `FixedBytes.leftAligned` complete a shorter byte string by zeros,
  and `FixedBytes.ofStart?` cuts a longer one.
-/

namespace ContractHost

/-- A byte string of any length. -/
abbrev Bytes := List UInt8

/-- A byte string of exactly `n` bytes. -/
@[ext] structure FixedBytes (n : Nat) where
  toList : List UInt8
  length_toList : toList.length = n
deriving DecidableEq

namespace FixedBytes

variable {n : Nat}

attribute [simp] length_toList

/-! ## Construction -/

def zero (n : Nat) : FixedBytes n :=
  ⟨List.replicate n 0, List.length_replicate⟩

instance : Inhabited (FixedBytes n) := ⟨zero n⟩

/-- The given bytes behind as many zero bytes as fill the width: as big-endian numbers, both
have the same value. -/
def rightAligned (bytes : Bytes) (fits : bytes.length ≤ n) : FixedBytes n :=
  ⟨List.replicate (n - bytes.length) 0 ++ bytes, by simp; omega⟩

/-- The given bytes in front of as many zero bytes as fill the width. -/
def leftAligned (bytes : Bytes) (fits : bytes.length ≤ n) : FixedBytes n :=
  ⟨bytes ++ List.replicate (n - bytes.length) 0, by simp; omega⟩

/-- The byte string with the given bytes in place of those from `offset` on. -/
def splice (b : FixedBytes n) (offset : Nat) (bytes : Bytes)
    (fits : offset + bytes.length ≤ n) : FixedBytes n :=
  ⟨b.toList.take offset ++ bytes ++ b.toList.drop (offset + bytes.length), by simp; omega⟩

/-- The first `n` bytes, or `none` if there are fewer. -/
def ofStart? (n : Nat) (bytes : Bytes) : Option (FixedBytes n) :=
  if h : n ≤ bytes.length then some ⟨bytes.take n, by simp [h]⟩ else none

def isZero (b : FixedBytes n) : Bool := b.toList.all (· == 0)

/-! ## Order -/

/-- The order of the byte lists: the first byte that differs decides. -/
instance : Ord (FixedBytes n) where
  compare := compareOn toList

instance : Std.TransOrd (FixedBytes n) :=
  inferInstanceAs (Std.TransCmp (compareOn (α := FixedBytes n) toList))

instance : Std.LawfulEqOrd (FixedBytes n) where
  eq_of_compare h := FixedBytes.ext (Std.LawfulEqCmp.eq_of_compare h)

end FixedBytes

end ContractHost
