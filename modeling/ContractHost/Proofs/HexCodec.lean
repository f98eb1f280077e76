import ContractHost.Proofs.Hex

/-!
# The codec of the program

The codec that the program runs with reads a text byte by byte, but what it reads is a matter of
characters: a character outside ASCII takes several bytes, none of which is a digit, so it is out of
place however it is looked at.

* `Hex.digitValue?_byteOf` — digits among characters and among bytes are the same.
* `Hex.decode_utf8Bytes` — which characters are decoded, and as what.
* **`Hex.codec_documented`** — the codec does what a codec is documented to do.
-/

namespace ContractHost.Hex

/-! ## Bytes that are digits -/

/-- The digits among ASCII characters are those that are read as digits. -/
lemma digitValue?_byteOf {c : Char} (ascii : c.toNat < 128) :
    digitValue? (byteOf c) = if IsDigit c then some (UInt8.ofNat (valueOf c)) else none := by
  have each : ∀ n < 128, digitValue? (byteOf (Char.ofNat n))
      = if IsDigit (Char.ofNat n) then some (UInt8.ofNat (valueOf (Char.ofNat n))) else none := by
    decide +kernel
  have here := each c.toNat ascii
  rwa [Char.ofNat_toNat] at here

lemma digitValue?_of_large {byte : UInt8} (large : 128 ≤ byte.toNat) : digitValue? byte = none := by
  have each : ∀ n < 256, 128 ≤ n → digitValue? (UInt8.ofNat n) = none := by
    decide +kernel
  have here := each byte.toNat byte.toNat_lt large
  rwa [UInt8.ofNat_toNat] at here

/-- A character outside ASCII takes several bytes, none of them an ASCII one. -/
lemma utf8EncodeChar_of_large {c : Char} (large : 128 ≤ c.toNat) :
    ∃ byte bytes, String.utf8EncodeChar c = byte :: bytes ∧
      ∀ other ∈ byte :: bytes, 128 ≤ other.toNat := by
  have outside : ¬ c.val.toNat ≤ 127 := not_le.2 large
  simp only [String.utf8EncodeChar, if_neg outside]
  split_ifs
  all_goals
    refine ⟨_, _, rfl, ?_⟩
    -- every byte has its highest bit set, so what is left is arithmetic
    simp only [List.forall_mem_cons, List.not_mem_nil, IsEmpty.forall_iff, implies_true, and_true,
      UInt8.toNat_ofNat', Char.toNat_val]
    omega

/-- A character that is no digit leaves a byte that is none. -/
lemma exists_foreign_byte {c : Char} (foreign : ¬ IsDigit c) :
    ∃ byte ∈ String.utf8EncodeChar c, digitValue? byte = none := by
  by_cases ascii : c.toNat < 128
  · refine ⟨byteOf c, ?_, ?_⟩
    · rw [utf8EncodeChar_of_ascii ascii]
      exact List.mem_singleton_self _
    · rw [digitValue?_byteOf ascii, if_neg foreign]
  · obtain ⟨byte, bytes, encoded, large⟩ := utf8EncodeChar_of_large (not_lt.1 ascii)
    rw [encoded]
    exact ⟨byte, List.mem_cons_self, digitValue?_of_large (large byte List.mem_cons_self)⟩

/-! ## Reading -/

lemma decodePairs_of_digits : ∀ (position : ℕ) (digits : List Char), (∀ c ∈ digits, IsDigit c) →
    decodePairs position (digits.map byteOf) = .ok (bytesOf digits)
  | _, [], _ => rfl
  | _, [_], _ => rfl
  | position, high :: low :: rest, all => by
      simp only [List.forall_mem_cons] at all
      obtain ⟨digit, digit', all⟩ := all
      have ih := decodePairs_of_digits (position + 2) rest all
      rw [List.map_cons, List.map_cons, decodePairs, digitValue?_byteOf digit.ascii,
        digitValue?_byteOf digit'.ascii, if_pos digit, if_pos digit', ih, bytesOf]
      simp [Except.map]

/-- Two bytes are decoded only as the values of two digits. -/
lemma exists_of_decodePairs_cons {position : ℕ} {high low : UInt8} {rest decoded : Bytes}
    (read : decodePairs position (high :: low :: rest) = .ok decoded) :
    digitValue? high ≠ none ∧ digitValue? low ≠ none ∧
      ∃ behind, decodePairs (position + 2) rest = .ok behind := by
  rw [decodePairs] at read
  cases first : digitValue? high with
  | none =>
      rw [first] at read
      cases read
  | some h =>
      cases second : digitValue? low with
      | none =>
          rw [first, second] at read
          cases read
      | some l =>
          refine ⟨Option.some_ne_none h, Option.some_ne_none l, ?_⟩
          cases behind : decodePairs (position + 2) rest with
          | error error =>
              rw [first, second, behind] at read
              cases read
          | ok bytes => exact ⟨bytes, rfl⟩

lemma digitValue?_ne_none_of_decodePairs : ∀ (position : ℕ) (bytes decoded : Bytes),
    bytes.length % 2 = 0 → decodePairs position bytes = .ok decoded →
    ∀ byte ∈ bytes, digitValue? byte ≠ none
  | _, [], _, _, _ => List.forall_mem_nil _
  | _, [_], _, even, _ => absurd even Nat.one_ne_zero
  | position, high :: low :: rest, decoded, even, read => by
      have even : rest.length % 2 = 0 := by
        simp only [List.length_cons] at even
        omega
      obtain ⟨first, second, behind, read⟩ := exists_of_decodePairs_cons read
      rw [List.forall_mem_cons, List.forall_mem_cons]
      exact ⟨first, second, digitValue?_ne_none_of_decodePairs (position + 2) rest behind even read⟩

/-- **Exactly the digits in even number are decoded,** two of them for each byte. -/
lemma decode_utf8Bytes {chars : List Char} {decoded : Bytes} :
    decode (utf8Bytes chars) = .ok decoded
      ↔ (∀ c ∈ chars, IsDigit c) ∧ chars.length % 2 = 0 ∧ bytesOf chars = decoded := by
  constructor
  · intro read
    rw [decode] at read
    split_ifs at read with odd
    have even : (utf8Bytes chars).length % 2 = 0 := Nat.mod_two_ne_one.1 odd
    have each := digitValue?_ne_none_of_decodePairs _ _ _ even read
    -- a character that is no digit would have left a byte that is none
    have all : ∀ c ∈ chars, IsDigit c := by
      intro c among
      by_contra foreign
      obtain ⟨byte, inside, unknown⟩ := exists_foreign_byte foreign
      exact each byte (List.mem_flatMap.2 ⟨c, among, inside⟩) unknown
    rw [utf8Bytes_of_digits all] at even read
    rw [decodePairs_of_digits _ _ all] at read
    rw [List.length_map] at even
    exact ⟨all, even, Except.ok.inj read⟩
  · rintro ⟨all, even, rfl⟩
    rw [utf8Bytes_of_digits all, decode, if_neg, decodePairs_of_digits _ _ all]
    rw [List.length_map]
    omega

/-! ## Writing -/

/-- The digit of a number below sixteen. -/
lemma digit_eq (value : UInt8) (small : value.toNat < 16) : digit value = value.toNat.digitChar := by
  have each : ∀ n < 16, digit (UInt8.ofNat n) = n.digitChar := by decide
  have here := each value.toNat small
  rwa [UInt8.ofNat_toNat] at here

lemma toList_encode (bytes : Bytes) : (encode bytes).toList = digitsOf bytes := by
  have each (byte : UInt8) : [digit (byte / 16), digit (byte % 16)]
      = [(byte.toNat / 16).digitChar, (byte.toNat % 16).digitChar] := by
    have bound := byte.toNat_lt
    have high : (byte / 16).toNat = byte.toNat / 16 := UInt8.toNat_div byte 16
    have low : (byte % 16).toNat = byte.toNat % 16 := UInt8.toNat_mod byte 16
    rw [digit_eq (byte / 16) (by omega), digit_eq (byte % 16) (by omega), high, low]
  simp only [encode, String.toList_ofList, digitsOf, each]

/-- **The codec does what a codec is documented to do.** -/
theorem codec_documented : codec.Documented where
  accepts text := by
    simp only [codec, utf8_eq, decode_utf8Bytes, exists_and_left, exists_eq', and_true]
  reads text bytes read := by
    have read : decode (utf8 text) = .ok bytes := read
    rw [utf8_eq] at read
    exact (decode_utf8Bytes.1 read).2.2
  writes := toList_encode

end ContractHost.Hex
