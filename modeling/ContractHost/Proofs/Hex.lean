import ContractHost.Bytes.Hex
import ContractHost.Proofs.Numeral

/-!
# Hexadecimal text

Two things are known of a codec of hexadecimal texts (`HexCodec.Documented`): it reads exactly the
texts of digits in even number, two for each byte, and it writes two lower-case digits for each byte.
Everything else is a matter of the digits and of the numbers that they denote, since the bytes that
pairs of digits stand for have the number of the digits.

* `Hex.IsDigit`, `Hex.number` — digits of either case, and the number that some of them denote.
* `Hex.bytesOf` — the bytes that pairs of digits stand for; `Hex.bigEndianValue_bytesOf`, their
  number.
* `Hex.digitsOf` — the digits that bytes are written with; `Hex.number_digitsOf`, their number.
* **`HexCodec.Documented`** — what is known of a codec; `HexCodec.Documented.number_of_toLower`, what
  is written denotes the number of the bytes, in this and in any other mix of cases.
-/

namespace ContractHost

namespace Hex

/-! ## Digits -/

/-- The digits in the order of their values. -/
def alphabet : List Char :=
  ['0', '1', '2', '3', '4', '5', '6', '7', '8', '9', 'a', 'b', 'c', 'd', 'e', 'f']

/-- The character is a digit, in either case. -/
def IsDigit (c : Char) : Prop := c.toLower ∈ alphabet

instance : DecidablePred IsDigit := fun c => inferInstanceAs (Decidable (c.toLower ∈ alphabet))

def valueOf (c : Char) : ℕ := alphabet.idxOf c.toLower

/-- The number that digits denote, the most significant one first. -/
def number (digits : List Char) : ℕ := Nat.ofDigits 16 (digits.reverse.map valueOf)

lemma toNat_lt_of_mem_alphabet : ∀ c ∈ alphabet, c.toNat < 128 := by
  have each : alphabet.all (·.toNat < 128) = true := by decide
  simpa only [List.all_eq_true, decide_eq_true_eq] using each

lemma toLower_of_mem_alphabet : ∀ c ∈ alphabet, c.toLower = c := by
  have each : alphabet.all (fun c => c.toLower = c) = true := by decide
  simpa only [List.all_eq_true, decide_eq_true_eq] using each

lemma IsDigit.ascii {c : Char} (digit : IsDigit c) : c.toNat < 128 := by
  by_contra large
  have capital : ¬ (c.val ≥ 'A'.val ∧ c.val ≤ 'Z'.val) := by
    rintro ⟨-, below⟩
    exact large (lt_of_le_of_lt (UInt32.le_iff_toNat_le.1 below) (by decide))
  have unchanged : c.toLower = c := dif_neg capital
  rw [IsDigit, unchanged] at digit
  exact large (toNat_lt_of_mem_alphabet c digit)

lemma IsDigit.valueOf_lt {c : Char} (digit : IsDigit c) : valueOf c < 16 :=
  List.idxOf_lt_length_of_mem digit

/-- Numbers below sixteen are written with the digits of their values. -/
lemma digitChar_of_lt {n : ℕ} (small : n < 16) :
    n.digitChar ∈ alphabet ∧ valueOf n.digitChar = n := by
  have each : ∀ n < 16, n.digitChar ∈ alphabet ∧ valueOf n.digitChar = n := by decide
  exact each n small

/-! ## The number that digits denote -/

lemma number_append (high low : List Char) :
    number (high ++ low) = number high * 16 ^ low.length + number low := by
  simp only [number, List.reverse_append, List.map_append, Nat.ofDigits_append, List.length_map,
    List.length_reverse]
  ring

lemma number_cons (c : Char) (digits : List Char) :
    number (c :: digits) = valueOf c * 16 ^ digits.length + number digits := by
  have first : number [c] = valueOf c := Nat.ofDigits_singleton
  rw [← List.singleton_append, number_append, first]

lemma number_lt {digits : List Char} (all : ∀ c ∈ digits, IsDigit c) :
    number digits < 16 ^ digits.length := by
  have small : ∀ value ∈ digits.reverse.map valueOf, value < 16 := by
    simp only [List.forall_mem_map, List.mem_reverse]
    exact fun c among => (all c among).valueOf_lt
  have bound := Nat.ofDigits_lt_base_pow_length (by decide : 1 < 16) small
  rwa [List.length_map, List.length_reverse] at bound

/-- The case of digits does not count. -/
lemma number_map_toLower {digits : List Char} (all : ∀ c ∈ digits, IsDigit c) :
    number (digits.map Char.toLower) = number digits := by
  have each : ∀ c ∈ digits, valueOf c.toLower = valueOf c := by
    intro c among
    rw [valueOf, valueOf, toLower_of_mem_alphabet _ (all c among)]
  simp only [number, ← List.map_reverse, List.map_map]
  refine congrArg _ (List.map_congr_left fun c among => ?_)
  exact each c (List.mem_reverse.1 among)

/-! ## Bytes and pairs of digits -/

/-- The bytes that pairs of digits stand for. -/
def bytesOf : List Char → Bytes
  | high :: low :: rest => UInt8.ofNat (16 * valueOf high + valueOf low) :: bytesOf rest
  | _ => []

lemma length_bytesOf : ∀ digits : List Char, (bytesOf digits).length = digits.length / 2
  | [] => rfl
  | [_] => by simp [bytesOf]
  | high :: low :: rest => by
      rw [bytesOf, List.length_cons, length_bytesOf rest]
      simp only [List.length_cons]
      omega

/-- The bytes have the number of the digits that they come from. -/
lemma bigEndianValue_bytesOf : ∀ digits : List Char, (∀ c ∈ digits, IsDigit c) →
    digits.length % 2 = 0 → Bytes.bigEndianValue (bytesOf digits) = number digits
  | [], _, _ => rfl
  | [_], _, even => absurd even Nat.one_ne_zero
  | high :: low :: rest, all, even => by
      simp only [List.forall_mem_cons] at all
      obtain ⟨digit, digit', all⟩ := all
      have even : rest.length % 2 = 0 := by
        simp only [List.length_cons] at even
        omega
      have ih := bigEndianValue_bytesOf rest all even
      have byte : (UInt8.ofNat (16 * valueOf high + valueOf low)).toNat
          = 16 * valueOf high + valueOf low := by
        have bound := digit.valueOf_lt
        have bound' := digit'.valueOf_lt
        have small : 16 * valueOf high + valueOf low < 256 := by omega
        exact UInt8.toNat_ofNat_of_lt small
      have place : 256 ^ (rest.length / 2) = 16 ^ rest.length := by
        rw [show 256 = 16 ^ 2 from rfl, ← pow_mul, Nat.mul_div_cancel' (Nat.dvd_of_mod_eq_zero even)]
      rw [bytesOf, Bytes.bigEndianValue_cons, byte, length_bytesOf, place, ih, number_cons,
        number_cons, List.length_cons]
      ring

/-- The digits that bytes are written with, two lower-case ones for each. -/
def digitsOf (bytes : Bytes) : List Char :=
  bytes.flatMap fun byte => [(byte.toNat / 16).digitChar, (byte.toNat % 16).digitChar]

lemma digitsOf_cons (byte : UInt8) (bytes : Bytes) :
    digitsOf (byte :: bytes)
      = (byte.toNat / 16).digitChar :: (byte.toNat % 16).digitChar :: digitsOf bytes :=
  List.flatMap_cons

lemma mem_alphabet_of_digitsOf (bytes : Bytes) : ∀ c ∈ digitsOf bytes, c ∈ alphabet := by
  induction bytes with
  | nil => exact List.forall_mem_nil _
  | cons byte bytes ih =>
      have bound := byte.toNat_lt
      have high : byte.toNat / 16 < 16 := by omega
      have low : byte.toNat % 16 < 16 := by omega
      rw [digitsOf_cons, List.forall_mem_cons, List.forall_mem_cons]
      exact ⟨(digitChar_of_lt high).1, (digitChar_of_lt low).1, ih⟩

lemma length_digitsOf (bytes : Bytes) : (digitsOf bytes).length = 2 * bytes.length := by
  induction bytes with
  | nil => rfl
  | cons byte bytes ih =>
      rw [digitsOf_cons, List.length_cons, List.length_cons, ih, List.length_cons]
      ring

/-- What bytes are written with denotes their number. -/
lemma number_digitsOf (bytes : Bytes) : number (digitsOf bytes) = Bytes.bigEndianValue bytes := by
  induction bytes with
  | nil => rfl
  | cons byte bytes ih =>
      have bound := byte.toNat_lt
      have high : valueOf (byte.toNat / 16).digitChar = byte.toNat / 16 :=
        (digitChar_of_lt (by omega)).2
      have low : valueOf (byte.toNat % 16).digitChar = byte.toNat % 16 :=
        (digitChar_of_lt (by omega)).2
      have value : byte.toNat = 16 * (byte.toNat / 16) + byte.toNat % 16 :=
        (Nat.div_add_mod _ 16).symm
      have place : 16 ^ (2 * bytes.length) = 256 ^ bytes.length := pow_mul 16 2 bytes.length
      rw [digitsOf_cons, number_cons, number_cons, ih, List.length_cons, length_digitsOf, high, low,
        Bytes.bigEndianValue_cons, pow_succ, place]
      conv_rhs => rw [value]
      ring

/-! ## Characters and their bytes -/

/-- The byte of an ASCII character. -/
def byteOf (c : Char) : UInt8 := UInt8.ofNat c.toNat

def utf8Bytes (chars : List Char) : Bytes := chars.flatMap String.utf8EncodeChar

lemma utf8_eq (text : String) : utf8 text = utf8Bytes text.toList := by
  rw [utf8, String.toUTF8_eq_toByteArray, ← String.utf8Encode_toList, List.utf8Encode,
    List.toList_data_toByteArray, utf8Bytes]

lemma utf8EncodeChar_of_ascii {c : Char} (ascii : c.toNat < 128) :
    String.utf8EncodeChar c = [byteOf c] :=
  if_pos (Nat.le_of_lt_succ ascii)

lemma utf8Bytes_cons (c : Char) (chars : List Char) :
    utf8Bytes (c :: chars) = String.utf8EncodeChar c ++ utf8Bytes chars := List.flatMap_cons

lemma utf8Bytes_of_digits {digits : List Char} (all : ∀ c ∈ digits, IsDigit c) :
    utf8Bytes digits = digits.map byteOf := by
  induction digits with
  | nil => rfl
  | cons c digits ih =>
      rw [List.forall_mem_cons] at all
      rw [utf8Bytes_cons, utf8EncodeChar_of_ascii all.1.ascii, ih all.2]
      rfl

/-- Digits take one byte each. -/
lemma length_utf8_of_digits {text : String} (all : ∀ c ∈ text.toList, IsDigit c) :
    (utf8 text).length = text.toList.length := by
  rw [utf8_eq, utf8Bytes_of_digits all, List.length_map]

/-! ## The mark in front -/

lemma unmarked_of_plain {chars : List Char} (plain : ∀ rest, chars ≠ '0' :: 'x' :: rest) :
    unmarked chars = chars := by
  unfold unmarked
  split
  · exact absurd rfl (plain _)
  · rfl

/-- The characters of a text behind the mark. -/
def behindMark (text : String) : List Char := unmarked text.toList

lemma toList_withoutMark (text : String) : (withoutMark text).toList = behindMark text :=
  String.toList_ofList

lemma behindMark_marked (text : String) : behindMark ("0x" ++ text) = text.toList := by
  rw [behindMark, String.toList_append]
  rfl

end Hex

/-! ## What is known of a codec -/

open Hex

/-- What a codec of hexadecimal texts is documented to do. -/
structure HexCodec.Documented (codec : HexCodec) : Prop where
  /-- The texts of digits in even number, of either case, are read, and no others. -/
  accepts : ∀ text : String, (∃ bytes, codec.decode text = .ok bytes) ↔
    (∀ c ∈ text.toList, IsDigit c) ∧ text.toList.length % 2 = 0
  /-- Two digits are read as one byte, the high one first. -/
  reads : ∀ (text : String) (bytes : Bytes), codec.decode text = .ok bytes →
    bytesOf text.toList = bytes
  /-- A byte is written as two lower-case digits, the high one first. -/
  writes : ∀ bytes : Bytes, (codec.encode bytes).toList = digitsOf bytes

namespace HexCodec.Documented

variable {codec : HexCodec} {text : String} {bytes : Bytes}

lemma decode_eq_ok_iff (documented : codec.Documented) :
    codec.decode text = .ok bytes
      ↔ (∀ c ∈ text.toList, IsDigit c) ∧ text.toList.length % 2 = 0 ∧
        bytesOf text.toList = bytes := by
  constructor
  · intro read
    obtain ⟨all, even⟩ := (documented.accepts text).1 ⟨bytes, read⟩
    exact ⟨all, even, documented.reads text bytes read⟩
  · rintro ⟨all, even, rfl⟩
    obtain ⟨decoded, read⟩ := (documented.accepts text).2 ⟨all, even⟩
    rw [read, documented.reads text decoded read]

section Recased

variable (documented : codec.Documented) (same : text.toLower = codec.encode bytes)

include documented same

/-- A text that is written in some mix of cases. -/
lemma toList_of_toLower : text.toList.map Char.toLower = digitsOf bytes := by
  rw [← documented.writes, ← same]
  exact String.toList_map.symm

lemma forall_digit_of_toLower : ∀ c ∈ text.toList, IsDigit c := by
  intro c among
  refine mem_alphabet_of_digitsOf bytes c.toLower ?_
  rw [← documented.toList_of_toLower same]
  exact List.mem_map_of_mem among

lemma length_of_toLower : text.toList.length = 2 * bytes.length := by
  rw [← length_digitsOf, ← documented.toList_of_toLower same, List.length_map]

lemma number_of_toLower : number text.toList = Bytes.bigEndianValue bytes := by
  rw [← number_map_toLower (documented.forall_digit_of_toLower same),
    documented.toList_of_toLower same, number_digitsOf]

/-- Nothing that is written starts with the mark. -/
lemma behindMark_of_toLower : behindMark text = text.toList := by
  refine unmarked_of_plain fun rest marked => ?_
  have cross : ¬ IsDigit 'x' := by decide
  refine cross (documented.forall_digit_of_toLower same 'x' ?_)
  rw [marked]
  simp

end Recased

end HexCodec.Documented

end ContractHost
