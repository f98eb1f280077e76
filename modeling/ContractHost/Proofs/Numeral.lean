import ContractHost.Proofs.Wire
import Mathlib.Data.Nat.Digits.Defs

/-!
# Byte strings as numerals

Read with its first byte as the most significant one, a byte string is a numeral in base 256
(`Bytes.bigEndianValue_eq_ofDigits`).  Everything else follows from where a numeral is cut: the
number of the whole is the number of the front, moved up by the width of the rest, and the number of
the rest (`Bytes.bigEndianValue_append`).

* `Bytes.bigEndianValue_take`, `Bytes.bigEndianValue_drop` — the front of a numeral is a quotient,
  and the rest a remainder.
* **`Bytes.compare_eq`** — among byte strings of one length the order of a dictionary is the order
  of the numbers.
-/

namespace ContractHost.Bytes

/-! ## Base 256 -/

lemma littleEndianValue_eq_ofDigits (bytes : Bytes) :
    littleEndianValue bytes = Nat.ofDigits 256 (bytes.map UInt8.toNat) := by
  induction bytes with
  | nil => rfl
  | cons byte bytes ih => rw [littleEndianValue, ih, List.map_cons, Nat.ofDigits_cons]

lemma bigEndianValue_eq_ofDigits (bytes : Bytes) :
    bigEndianValue bytes = Nat.ofDigits 256 (bytes.reverse.map UInt8.toNat) :=
  littleEndianValue_eq_ofDigits bytes.reverse

/-- A numeral that is cut into two. -/
lemma bigEndianValue_append (high low : Bytes) :
    bigEndianValue (high ++ low)
      = bigEndianValue high * 256 ^ low.length + bigEndianValue low := by
  simp only [bigEndianValue_eq_ofDigits, List.reverse_append, List.map_append, Nat.ofDigits_append,
    List.length_map, List.length_reverse]
  ring

lemma bigEndianValue_cons (byte : UInt8) (bytes : Bytes) :
    bigEndianValue (byte :: bytes) = byte.toNat * 256 ^ bytes.length + bigEndianValue bytes := by
  have first : bigEndianValue [byte] = byte.toNat := by
    simp [bigEndianValue, littleEndianValue]
  rw [← List.singleton_append, bigEndianValue_append, first]

lemma bigEndianValue_lt (bytes : Bytes) : bigEndianValue bytes < 256 ^ bytes.length := by
  rw [bigEndianValue, ← List.length_reverse]
  exact littleEndianValue_lt bytes.reverse

/-- Only zero bytes denote zero. -/
lemma bigEndianValue_eq_zero_iff (bytes : Bytes) :
    bigEndianValue bytes = 0 ↔ ∀ byte ∈ bytes, byte = 0 := by
  induction bytes with
  | nil => simp [bigEndianValue, littleEndianValue]
  | cons byte bytes ih =>
      have digit : byte.toNat = 0 ↔ byte = 0 := UInt8.toNat_inj (b := 0)
      rw [bigEndianValue_cons, Nat.add_eq_zero_iff, ih, List.forall_mem_cons, ← digit,
        Nat.mul_eq_zero]
      simp

/-! ## Cuts -/

section Cut

variable {bytes : Bytes} {first width : ℕ}

lemma bigEndianValue_cut (length : bytes.length = first + width) :
    bigEndianValue (bytes.drop first) < 256 ^ width ∧
      bigEndianValue bytes
        = bigEndianValue (bytes.take first) * 256 ^ width + bigEndianValue (bytes.drop first) := by
  have rest : (bytes.drop first).length = width := by
    rw [List.length_drop, length, Nat.add_sub_cancel_left]
  have small := bigEndianValue_lt (bytes.drop first)
  have whole := bigEndianValue_append (bytes.take first) (bytes.drop first)
  rw [rest] at small whole
  rw [List.take_append_drop] at whole
  exact ⟨small, whole⟩

/-- The end of a numeral denotes what is left after division by the place value of its start. -/
lemma bigEndianValue_drop (length : bytes.length = first + width) :
    bigEndianValue (bytes.drop first) = bigEndianValue bytes % 256 ^ width := by
  obtain ⟨small, whole⟩ := bigEndianValue_cut length
  rw [whole, Nat.mul_add_mod_of_lt small]

lemma bigEndianValue_take (length : bytes.length = first + width) :
    bigEndianValue (bytes.take first) = bigEndianValue bytes / 256 ^ width := by
  obtain ⟨small, whole⟩ := bigEndianValue_cut length
  rw [whole, Nat.mul_comm, Nat.mul_add_div (by positivity), Nat.div_eq_of_lt small, Nat.add_zero]

end Cut

/-! ## Order -/

lemma compare_byte (byte other : UInt8) :
    compare byte other = compare byte.toNat other.toNat := by
  change compareOfLessAndEq byte other = compareOfLessAndEq byte.toNat other.toNat
  simp only [compareOfLessAndEq, UInt8.lt_iff_toNat_lt, UInt8.toNat_inj]

/-- Of two numbers with a part above the base and a part below, the parts above decide, and only
between equal ones the parts below. -/
lemma compare_mul_add {base high high' low low' : ℕ} (small : low < base) (small' : low' < base) :
    compare (high * base + low) (high' * base + low')
      = (compare high high').then (compare low low') := by
  have below {a b c d : ℕ} (less : a < b) (small : c < base) : a * base + c < b * base + d := by
    have step : (a + 1) * base ≤ b * base := Nat.mul_le_mul_right base less
    rw [Nat.succ_mul] at step
    omega
  obtain less | rfl | greater := lt_trichotomy high high'
  · rw [Nat.compare_eq_lt.2 less, Nat.compare_eq_lt.2 (below less small)]
    rfl
  · rw [Nat.compare_eq_eq.2 rfl, Ordering.eq_then]
    simp only [Nat.compare_eq_ite_lt, Nat.add_lt_add_iff_left]
  · rw [Nat.compare_eq_gt.2 greater, Nat.compare_eq_gt.2 (below greater small')]
    rfl

/-- **The order of a dictionary is the order of the numbers,** among byte strings of one length. -/
theorem compare_eq {bytes others : Bytes} (length : bytes.length = others.length) :
    compare bytes others = compare (bigEndianValue bytes) (bigEndianValue others) := by
  induction bytes generalizing others with
  | nil =>
      obtain rfl := List.eq_nil_of_length_eq_zero length.symm
      rfl
  | cons byte bytes ih =>
      obtain ⟨other, others, rfl⟩ := List.exists_cons_of_length_eq_add_one length.symm
      have length := Nat.succ.inj length
      have small := bigEndianValue_lt bytes
      have small' := bigEndianValue_lt others
      rw [← length] at small'
      -- the first byte counts for more than all that follow together
      have first : compare (byte :: bytes) (other :: others)
          = (compare byte other).then (compare bytes others) := List.compareLex_cons_cons
      rw [first, ih length, compare_byte, bigEndianValue_cons, bigEndianValue_cons, ← length,
        compare_mul_add small small']

/-- Byte strings of one length that denote the same number are the same. -/
lemma bigEndianValue_inj {bytes others : Bytes} (length : bytes.length = others.length) :
    bigEndianValue bytes = bigEndianValue others ↔ bytes = others := by
  rw [← Nat.compare_eq_eq, ← compare_eq length, Std.LawfulEqCmp.compare_eq_iff_eq]

end ContractHost.Bytes
