import ContractHost.Proofs.HexCodec
import ContractHost.Proofs.Words

/-!
# Spellings of words and addresses

A word or an address is written as hexadecimal digits.  When its text is read, the mark in front is
dropped, an odd number of digits is completed, a codec turns pairs of digits into bytes, and the
bytes become a word or an address.  Each of these steps has its own idea of what does not fit.
Together they come to this: the text is read if everything behind the mark is a digit and there are
as many of them as there may be, and the number that they denote is the number of what is read.  Of
the codec nothing is used but its documentation.

* `Hex.completed` — the digits that are decoded as a word.
* `Word.parse_eq_ok_iff`, `Address.parse_eq_ok_iff` — which texts are read, and as what.
* `Word.parse_of_toLower`, `Address.parse_of_toLower` — what was written is read again.
* **`spelling_exact`** — all of it, for every text and every codec.
-/

namespace ContractHost

/-! ## Completed digits -/

namespace Hex

/-- The text that is decoded as a word: an odd number of bytes is completed by a zero. -/
def completed (digits : String) : String :=
  if (utf8 digits).length % 2 = 1 then "0" ++ digits else digits

lemma toList_completed (digits : String) :
    (completed digits).toList
      = if (utf8 digits).length % 2 = 1 then '0' :: digits.toList else digits.toList := by
  rw [completed]
  split_ifs
  · rw [String.toList_append]
    rfl
  · rfl

variable {digits : String}

lemma forall_completed :
    (∀ c ∈ (completed digits).toList, IsDigit c) ↔ ∀ c ∈ digits.toList, IsDigit c := by
  have zero : IsDigit '0' := by decide
  rw [toList_completed]
  split_ifs
  · rw [List.forall_mem_cons, and_iff_right zero]
  · rfl

lemma length_completed (all : ∀ c ∈ digits.toList, IsDigit c) :
    (completed digits).toList.length = digits.toList.length + digits.toList.length % 2 := by
  rw [toList_completed, length_utf8_of_digits all]
  split_ifs with odd
  · rw [List.length_cons, odd]
  · rw [Nat.mod_two_ne_one.1 odd, Nat.add_zero]

lemma number_completed (digits : String) :
    number (completed digits).toList = number digits.toList := by
  have zero : valueOf '0' = 0 := by decide
  rw [toList_completed]
  split_ifs
  · rw [number_cons, zero, Nat.zero_mul, Nat.zero_add]
  · rfl

end Hex

open Hex

variable {codec : HexCodec} {text : String}

/-! ## What is read -/

section Word

variable {word : Word}

lemma Word.parse_of_decoded {bytes : Bytes}
    (decoded : codec.decode (completed (withoutMark text)) = .ok bytes) :
    Word.parse text codec = Word.ofBytes bytes := by
  rw [completed] at decoded
  rw [Word.parse, decoded]

lemma Word.parse_of_refused {error : HexError}
    (refused : codec.decode (completed (withoutMark text)) = .error error) :
    Word.parse text codec
      = .error (.malformed "word hex" 64 (utf8 (withoutMark text)).length) := by
  rw [completed] at refused
  rw [Word.parse, refused]

/-- **A text is read as a word** if at most 64 digits stand behind the mark, and nothing else. -/
theorem Word.parse_eq_ok_iff (documented : codec.Documented) :
    Word.parse text codec = .ok word
      ↔ (∀ c ∈ behindMark text, IsDigit c) ∧ (behindMark text).length ≤ 64 ∧
        word.toNat = number (behindMark text) := by
  rw [← toList_withoutMark, ← number_completed]
  constructor
  · intro read
    cases decoded : codec.decode (completed (withoutMark text)) with
    | error error =>
        rw [Word.parse_of_refused decoded] at read
        cases read
    | ok bytes =>
        rw [Word.parse_of_decoded decoded] at read
        obtain ⟨all, even, rfl⟩ := documented.decode_eq_ok_iff.1 decoded
        obtain ⟨fits, value⟩ := Word.ofBytes_eq_ok_iff.1 read
        rw [bigEndianValue_bytesOf _ all even] at value
        rw [forall_completed] at all
        rw [length_bytesOf, length_completed all] at fits
        exact ⟨all, by omega, value⟩
  · rintro ⟨all, fits, value⟩
    have length := length_completed all
    have even : (completed (withoutMark text)).toList.length % 2 = 0 := by omega
    have all := forall_completed.2 all
    rw [Word.parse_of_decoded (documented.decode_eq_ok_iff.2 ⟨all, even, rfl⟩)]
    refine Word.ofBytes_eq_ok_iff.2 ⟨?_, ?_⟩
    · rw [length_bytesOf]
      omega
    · rw [value, bigEndianValue_bytesOf _ all even]

lemma Word.exists_parse_iff (documented : codec.Documented) :
    (∃ word, Word.parse text codec = .ok word)
      ↔ (∀ c ∈ behindMark text, IsDigit c) ∧ (behindMark text).length ≤ 64 := by
  constructor
  · rintro ⟨word, read⟩
    obtain ⟨all, fits, -⟩ := (Word.parse_eq_ok_iff documented).1 read
    exact ⟨all, fits⟩
  · rintro ⟨all, fits⟩
    have small : number (behindMark text) < 2 ^ 256 :=
      (number_lt all).trans_le (Nat.pow_le_pow_right (by decide) fits)
    exact ⟨_, (Word.parse_eq_ok_iff documented).2 ⟨all, fits, Word.toNat_ofNat small⟩⟩

end Word

section Address

variable {address : Address}

/-- As many bytes as an address has are an address, and no other number of them is. -/
lemma Address.parse_iff_of_decoded {bytes : Bytes}
    (decoded : codec.decode (withoutMark text) = .ok bytes) :
    Address.parse text codec = .ok address ↔ bytes = address.toList := by
  rw [Address.parse, decoded]
  dsimp only
  constructor
  · intro read
    split_ifs at read with length
    have first : bytes.take 20 = bytes := List.take_of_length_le length.le
    simp only [Address.ofBytes, FixedBytes.ofStart?, dif_pos length.ge, first] at read
    cases read
    rfl
  · rintro rfl
    have length := address.length_toList
    have first : address.toList.take 20 = address.toList := List.take_of_length_le length.le
    simp only [Address.ofBytes, FixedBytes.ofStart?, if_pos length, dif_pos length.ge, first]

lemma Address.parse_of_refused {error : HexError}
    (refused : codec.decode (withoutMark text) = .error error) :
    Address.parse text codec
      = .error (.malformed "address hex" 40 (utf8 (withoutMark text)).length) := by
  rw [Address.parse, refused]

/-- **A text is read as an address** if exactly 40 digits stand behind the mark. -/
theorem Address.parse_eq_ok_iff (documented : codec.Documented) :
    Address.parse text codec = .ok address
      ↔ (∀ c ∈ behindMark text, IsDigit c) ∧ (behindMark text).length = 40 ∧
        Bytes.bigEndianValue address.toList = number (behindMark text) := by
  have width := address.length_toList
  have half := length_bytesOf (behindMark text)
  rw [← toList_withoutMark] at half ⊢
  constructor
  · intro read
    cases decoded : codec.decode (withoutMark text) with
    | error error =>
        rw [Address.parse_of_refused decoded] at read
        cases read
    | ok bytes =>
        rw [Address.parse_iff_of_decoded decoded] at read
        obtain ⟨all, even, same⟩ := documented.decode_eq_ok_iff.1 decoded
        rw [← read, ← same] at width ⊢
        exact ⟨all, by omega, bigEndianValue_bytesOf _ all even⟩
  · rintro ⟨all, length, value⟩
    have even : (withoutMark text).toList.length % 2 = 0 := by omega
    rw [Address.parse_iff_of_decoded (documented.decode_eq_ok_iff.2 ⟨all, even, rfl⟩),
      ← Bytes.bigEndianValue_inj (by omega), bigEndianValue_bytesOf _ all even, value]

lemma Address.exists_parse_iff (documented : codec.Documented) :
    (∃ address, Address.parse text codec = .ok address)
      ↔ (∀ c ∈ behindMark text, IsDigit c) ∧ (behindMark text).length = 40 := by
  constructor
  · rintro ⟨address, read⟩
    obtain ⟨all, length, -⟩ := (Address.parse_eq_ok_iff documented).1 read
    exact ⟨all, length⟩
  · rintro ⟨all, length⟩
    have even : (behindMark text).length % 2 = 0 := by omega
    have width : (bytesOf (behindMark text)).length = 20 := by
      rw [length_bytesOf]
      omega
    exact ⟨⟨bytesOf (behindMark text), width⟩,
      (Address.parse_eq_ok_iff documented).2 ⟨all, length, bigEndianValue_bytesOf _ all even⟩⟩

end Address

/-! ## What was written -/

section Recased

variable (documented : codec.Documented)

include documented

lemma Word.parse_of_toLower {word : Word} (same : text.toLower = word.toHex codec) :
    Word.parse text codec = .ok word ∧ Word.parse ("0x" ++ text) codec = .ok word := by
  have all := documented.forall_digit_of_toLower same
  have length : text.toList.length = 64 := by
    rw [documented.length_of_toLower same, word.length_toList]
  have value : word.toNat = number text.toList := (documented.number_of_toLower same).symm
  rw [Word.parse_eq_ok_iff documented, Word.parse_eq_ok_iff documented,
    documented.behindMark_of_toLower same, behindMark_marked]
  exact ⟨⟨all, length.le, value⟩, all, length.le, value⟩

lemma Address.parse_of_toLower {address : Address} (same : text.toLower = address.toHex codec) :
    Address.parse text codec = .ok address ∧
      Address.parse ("0x" ++ text) codec = .ok address := by
  have all := documented.forall_digit_of_toLower same
  have length : text.toList.length = 40 := by
    rw [documented.length_of_toLower same, address.length_toList]
  have value := (documented.number_of_toLower same).symm
  rw [Address.parse_eq_ok_iff documented, Address.parse_eq_ok_iff documented,
    documented.behindMark_of_toLower same, behindMark_marked]
  exact ⟨⟨all, length, value⟩, all, length, value⟩

end Recased

/-- **Texts are read as what they spell.**  Take any codec that does what is documented.  A text is
read as a word exactly if at most 64 digits and nothing else stand behind its mark, of which it has
one or none, and the word has the number that the digits denote.  It is read as an address exactly
if there are 40 digits, and the address has their number.  What is written for a word or an address
is read as it again, with the mark and without, and in any mix of cases. -/
theorem spelling_exact (codec : HexCodec) (documented : codec.Documented) :
    (∀ text : String,
      ((∃ word, Word.parse text codec = .ok word) ↔
        (∀ c ∈ behindMark text, IsDigit c) ∧ (behindMark text).length ≤ 64) ∧
      ∀ word, Word.parse text codec = .ok word → word.toNat = number (behindMark text)) ∧
    (∀ text : String,
      ((∃ address, Address.parse text codec = .ok address) ↔
        (∀ c ∈ behindMark text, IsDigit c) ∧ (behindMark text).length = 40) ∧
      ∀ address, Address.parse text codec = .ok address →
        Bytes.bigEndianValue address.toList = number (behindMark text)) ∧
    (∀ (text : String) (word : Word), text.toLower = word.toHex codec →
      Word.parse text codec = .ok word ∧ Word.parse ("0x" ++ text) codec = .ok word) ∧
    ∀ (text : String) (address : Address), text.toLower = address.toHex codec →
      Address.parse text codec = .ok address ∧
        Address.parse ("0x" ++ text) codec = .ok address := by
  refine ⟨fun text => ⟨Word.exists_parse_iff documented, fun word read => ?_⟩,
    fun text => ⟨Address.exists_parse_iff documented, fun address read => ?_⟩,
    fun text word => Word.parse_of_toLower documented,
    fun text address => Address.parse_of_toLower documented⟩
  · exact ((Word.parse_eq_ok_iff documented).1 read).2.2
  · exact ((Address.parse_eq_ok_iff documented).1 read).2.2

/-- An address that can be spelled in capitals. -/
def spellable : Address :=
  ⟨[0xde, 0xad, 0xbe, 0xef, 0, 0, 0, 0, 0, 0, 0, 0, 0, 0, 0, 0, 0, 0xc0, 0xff, 0xee], rfl⟩

/-- With the codec of the program, its spelling in two cases is read with the mark and without.  A
mark alone is read as zero, and no text with two marks is read at all. -/
theorem spellable_read :
    Hex.codec.Documented ∧
    Address.parse "DeaDBeeF00000000000000000000000000c0FFEE" Hex.codec = .ok spellable ∧
    Address.parse ("0x" ++ "DeaDBeeF00000000000000000000000000c0FFEE") Hex.codec
      = .ok spellable ∧
    Word.parse ("000000000000000000000000" ++ "DeaDBeeF00000000000000000000000000c0FFEE") Hex.codec
      = .ok spellable.toWord ∧
    (∃ word, Word.parse "0x" Hex.codec = .ok word ∧ word.toNat = 0) ∧
    ¬ ∃ word, Word.parse "0x0x2a" Hex.codec = .ok word := by
  obtain ⟨words, -, word, address⟩ := spelling_exact Hex.codec codec_documented
  obtain ⟨plain, marked⟩ := address "DeaDBeeF00000000000000000000000000c0FFEE" spellable
    (by decide +kernel)
  have long := word
    ("000000000000000000000000" ++ "DeaDBeeF00000000000000000000000000c0FFEE") spellable.toWord
    (by decide +kernel)
  have bare : behindMark "0x" = [] := by decide +kernel
  have second : 'x' ∈ behindMark "0x0x2a" := by decide +kernel
  refine ⟨codec_documented, plain, marked, long.1, ?_, fun read => ?_⟩
  · obtain ⟨readable, value⟩ := words "0x"
    rw [bare] at readable value
    obtain ⟨zero, read⟩ := readable.2 ⟨List.forall_mem_nil _, by decide⟩
    exact ⟨zero, read, value zero read⟩
  · exact absurd (((words "0x0x2a").1.1 read).1 'x' second) (by decide)

end ContractHost
