import ContractHost.Proofs.Numeral
import ContractHost.Store.Account

/-!
# Words and the numbers they denote

A word is the number that it denotes, written with 32 digits.  So a shorter byte string becomes the
word of the same number by zeros in front, and it does not matter whether it gets there as a number
or by being copied to the end of a blank word.  Every other way from a word to a number or to an
address cuts the numeral somewhere, and the order of the keys of a table is that of their numbers.

* `Word.ofNat_toNat` and `Word.ofNat_bigEndianValue` — words from numbers.
* `FixedBytes.splice_zero_front` and `FixedBytes.splice_zero_back` — copies into blank bytes.
* **`Word.denotation_exact`** — what each of the ways between words, byte strings, addresses and
  numbers does to the number.
-/

namespace ContractHost

/-! ## Numbers -/

namespace Word

lemma ofNat_toNat (word : Word) : ofNat word.toNat = word := by
  have length : word.toList.reverse.length = 32 := by simp
  have small := Bytes.littleEndianValue_lt word.toList.reverse
  rw [length] at small
  have digits := Bytes.littleEndian_littleEndianValue length
  rw [Nat.mod_eq_of_lt small] at digits
  refine FixedBytes.ext ?_
  change (Bytes.littleEndian 32 (Bytes.littleEndianValue word.toList.reverse)).reverse = _
  rw [digits, List.reverse_reverse]

/-- A number of 256 bits is read from its word again. -/
lemma toNat_ofNat {n : ℕ} (fits : n < 2 ^ 256) : (ofNat n).toNat = n := by
  change Bytes.littleEndianValue (Bytes.bigEndian 32 n).reverse = n
  rw [Bytes.bigEndian, List.reverse_reverse, Bytes.littleEndianValue_littleEndian]
  exact Nat.mod_eq_of_lt fits

lemma ofNat_inj {m n : ℕ} (fits : m < 2 ^ 256) (fits' : n < 2 ^ 256) : ofNat m = ofNat n ↔ m = n := by
  refine ⟨fun same => ?_, congrArg ofNat⟩
  rw [← toNat_ofNat fits, same, toNat_ofNat fits']

lemma toNat_inj {word other : Word} : word.toNat = other.toNat ↔ word = other :=
  (Function.LeftInverse.injective ofNat_toNat).eq_iff

/-- High digits that are zero do not count. -/
lemma toNat_rightAligned {bytes : Bytes} (fits : bytes.length ≤ 32) :
    toNat (FixedBytes.rightAligned bytes fits) = Bytes.bigEndianValue bytes := by
  have blank : Bytes.bigEndianValue (List.replicate (32 - bytes.length) 0) = 0 :=
    (Bytes.bigEndianValue_eq_zero_iff _).2 fun _ => List.eq_of_mem_replicate
  rw [toNat, FixedBytes.rightAligned, Bytes.bigEndianValue_append, blank, Nat.zero_mul,
    Nat.zero_add]

/-- The word of a number of at most 32 digits ends in these digits. -/
lemma ofNat_bigEndianValue {bytes : Bytes} (fits : bytes.length ≤ 32) :
    ofNat (Bytes.bigEndianValue bytes) = FixedBytes.rightAligned bytes fits := by
  rw [← toNat_rightAligned fits, ofNat_toNat]

/-- A number of 128 bits or fewer has its word from half as many digits. -/
lemma ofNat_eq_rightAligned {n : ℕ} (small : n < 256 ^ 16) :
    ofNat n = FixedBytes.rightAligned (Bytes.bigEndian 16 n) (by simp) := by
  have value : Bytes.bigEndianValue (Bytes.bigEndian 16 n) = n := by
    rw [Bytes.bigEndianValue, Bytes.bigEndian, List.reverse_reverse,
      Bytes.littleEndianValue_littleEndian, Nat.mod_eq_of_lt small]
  rw [← ofNat_bigEndianValue, value]

end Word

/-! ## Copies into blank bytes -/

namespace FixedBytes

variable {n : ℕ} {bytes : Bytes}

/-- A byte string of full width replaces everything. -/
lemma splice_whole (target : FixedBytes n) (length : 0 + bytes.length = n) :
    target.splice 0 bytes length.le = ⟨bytes, by omega⟩ := by
  refine FixedBytes.ext ?_
  simp [splice, length]

/-- Behind the bytes that are copied there everything stays. -/
lemma drop_splice (target : FixedBytes n) {first last : ℕ} (fits : first + bytes.length ≤ n)
    (behind : first + bytes.length ≤ last) :
    (target.splice first bytes fits).toList.drop last = target.toList.drop last := by
  have front : (target.toList.take first ++ bytes).length = first + bytes.length := by
    rw [List.length_append, List.length_take, target.length_toList]
    omega
  rw [splice, List.drop_append, List.drop_eq_nil_of_le (front.trans_le behind), List.nil_append,
    List.drop_drop, front, Nat.add_sub_cancel' behind]

/-- Around the bytes that are copied there everything stays blank. -/
lemma toList_splice_zero {first : ℕ} (fits : first + bytes.length ≤ n) :
    ((zero n).splice first bytes fits).toList
      = List.replicate first 0 ++ (bytes ++ List.replicate (n - (first + bytes.length)) 0) := by
  have front : min first n = first := by omega
  simp only [splice, zero, List.take_replicate, List.drop_replicate, front, List.append_assoc]

lemma splice_zero_front (fits : bytes.length ≤ n) :
    (zero n).splice 0 bytes (by omega) = leftAligned bytes fits := by
  refine FixedBytes.ext ?_
  rw [toList_splice_zero, leftAligned, List.replicate_zero, List.nil_append, Nat.zero_add]

lemma splice_zero_back {first : ℕ} (fits : first + bytes.length = n) :
    (zero n).splice first bytes fits.le = rightAligned bytes (by omega) := by
  subst fits
  refine FixedBytes.ext ?_
  rw [toList_splice_zero, Nat.sub_self, List.replicate_zero, List.append_nil]
  simp only [rightAligned, Nat.add_sub_cancel]

end FixedBytes

/-! ## What is left of the number -/

namespace Word

variable {word : Word}

lemma isZero_iff_toNat : word.isZero = true ↔ word.toNat = 0 := by
  rw [toNat, Bytes.bigEndianValue_eq_zero_iff, FixedBytes.isZero, List.all_eq_true]
  simp only [beq_iff_eq]

lemma toNat128?_eq (word : Word) :
    word.toNat128? = if word.toNat < 2 ^ 128 then some word.toNat else none := by
  have cut : word.toList.length = 16 + 16 := word.length_toList
  have high : (word.toList.take 16).all (· == 0) = true ↔ word.toNat < 2 ^ 128 := by
    have quotient : Bytes.bigEndianValue (word.toList.take 16) = word.toNat / 2 ^ 128 :=
      Bytes.bigEndianValue_take cut
    rw [← Nat.div_eq_zero_iff_lt (by positivity), ← quotient, Bytes.bigEndianValue_eq_zero_iff,
      List.all_eq_true]
    simp only [beq_iff_eq]
  have low : Bytes.bigEndianValue (word.toList.drop 16) = word.toNat % 2 ^ 128 :=
    Bytes.bigEndianValue_drop cut
  rw [toNat128?, low]
  split_ifs with zero small small
  · rw [Nat.mod_eq_of_lt small]
  · exact absurd (high.1 zero) small
  · exact absurd (high.2 small) zero
  · rfl

lemma toNat_low32 (word : Word) : word.low32.toNat = word.toNat % 2 ^ 32 := by
  have cut : word.toList.length = 28 + 4 := word.length_toList
  rw [low32, Bytes.bigEndianValue_drop cut, UInt32.toNat_ofNat']
  exact Nat.mod_mod _ _

lemma toNat_ofWord_toWord (word : Word) :
    (Address.ofWord word).toWord.toNat = word.toNat % 2 ^ 160 := by
  have cut : word.toList.length = 12 + 20 := word.length_toList
  rw [Address.toWord, toNat_rightAligned, Address.ofWord, Bytes.bigEndianValue_drop cut]
  rfl

lemma ofBytes_eq_ok_iff {bytes : Bytes} :
    ofBytes bytes = .ok word ↔ bytes.length ≤ 32 ∧ word.toNat = Bytes.bigEndianValue bytes := by
  rw [ofBytes]
  split_ifs with fits
  · rw [Except.ok.injEq, ← toNat_inj, toNat_rightAligned, eq_comm, and_iff_right fits]
  · simp [fits]

/-! ## Order -/

lemma compare_eq_toNat (word other : Word) :
    compare word other = compare word.toNat other.toNat :=
  Bytes.compare_eq (word.length_toList.trans other.length_toList.symm)

/-- The keys of a table are listed by their numbers. -/
lemma keys_ascending (slots : Slots) : (slots.keys.map toNat).Pairwise (· < ·) := by
  rw [List.pairwise_map]
  refine Std.ExtTreeMap.ordered_keys.imp fun {key later} before => ?_
  rw [compare_eq_toNat] at before
  exact Nat.compare_eq_lt.1 before

/-- **Words mean numbers.**  A word is a numeral of 32 digits in base 256.  The word of a number of 128
bits holds its 16 bytes behind as many zeros, and denotes this number, which is found again in
exactly those words whose number has no more bits.
The low bits of a word are a remainder, and so is what is left of it as an address; only the number
zero is zero.  A byte string becomes a word exactly if it has at most 32 bytes, and then the word of
the same number.  Words are ordered by their numbers, and so are the keys in a table. -/
theorem denotation_exact :
    (∀ n : BitVec 128,
      ofNat n.toNat = (FixedBytes.zero 32).splice 16 (Bytes.bigEndian 16 n.toNat) (by simp) ∧
      (ofNat n.toNat).toNat = n.toNat) ∧
    (∀ word : Word,
      word.toNat = Nat.ofDigits 256 (word.toList.reverse.map UInt8.toNat) ∧
      word.toNat128? = (if word.toNat < 2 ^ 128 then some word.toNat else none) ∧
      word.low32.toNat = word.toNat % 2 ^ 32 ∧
      (word.isZero = true ↔ word.toNat = 0) ∧
      (Address.ofWord word).toWord.toNat = word.toNat % 2 ^ 160) ∧
    (∀ bytes : Bytes,
      ((∃ word, ofBytes bytes = .ok word) ↔ bytes.length ≤ 32) ∧
      ∀ word, ofBytes bytes = .ok word ↔
        bytes.length ≤ 32 ∧ word.toNat = Bytes.bigEndianValue bytes) ∧
    (∀ word other : Word, compare word other = compare word.toNat other.toNat) ∧
    ∀ slots : Slots, (slots.keys.map toNat).Pairwise (· < ·) := by
  refine ⟨fun n => ?_, fun word => ?_, fun bytes => ?_, compare_eq_toNat, keys_ascending⟩
  · have length : 16 + (Bytes.bigEndian 16 n.toNat).length = 32 := by simp
    refine ⟨?_, toNat_ofNat (n.isLt.trans (by decide))⟩
    rw [FixedBytes.splice_zero_back length, ofNat_eq_rightAligned n.isLt]
  · exact ⟨Bytes.bigEndianValue_eq_ofDigits word.toList, word.toNat128?_eq, word.toNat_low32,
      isZero_iff_toNat, word.toNat_ofWord_toWord⟩
  · refine ⟨⟨?_, fun fits => ?_⟩, fun word => ofBytes_eq_ok_iff⟩
    · rintro ⟨word, read⟩
      exact (ofBytes_eq_ok_iff.1 read).1
    · exact ⟨FixedBytes.rightAligned bytes fits, dif_pos fits⟩

end Word

end ContractHost
