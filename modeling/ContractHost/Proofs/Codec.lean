import ContractHost.Proofs.Header

/-!
# What a header may be

Reading undoes writing (`CallMessage.decode_encode`), but a buffer need not have been written by
anyone.  Every buffer that is long enough starts with the fields of a header, with some number where
the kind should be and some bytes where the padding should be zero.  The number decides whether
there is a message at all; the padding is the only thing about the header that the message does not
remember, and so writing undoes reading but for the padding.

* `CallKind.exists_number_iff` — the numbers of kinds.
* `CallMessage.exists_header` — the fields at the start of a buffer.
* `CallMessage.blanked` — the start of a buffer with zero padding, and
  **`CallMessage.encode_of_decode`** — what is written for a message that was read.
* **`CallMessage.header_codec`** — all of it for every message and every buffer.
-/

namespace ContractHost

/-! ## Numbers of kinds -/

namespace CallKind

variable {number : Int32}

/-- The kinds have the numbers from zero to four. -/
lemma exists_number_iff : (∃ kind : CallKind, kind.number = number) ↔ 0 ≤ number ∧ number ≤ 4 := by
  constructor
  · rintro ⟨kind, rfl⟩
    cases kind <;> decide
  · rintro ⟨lower, upper⟩
    rw [Int32.le_iff_toInt_le] at lower upper
    have least : (0 : Int32).toInt = 0 := rfl
    have greatest : (4 : Int32).toInt = 4 := rfl
    have value (kind : CallKind) (same : kind.number.toInt = number.toInt) :
        ∃ kind : CallKind, kind.number = number := ⟨kind, Int32.toInt_inj.1 same⟩
    obtain zero | one | two | three | four : number.toInt = 0 ∨ number.toInt = 1 ∨
        number.toInt = 2 ∨ number.toInt = 3 ∨ number.toInt = 4 := by
      omega
    · exact value .call zero.symm
    · exact value .delegateCall one.symm
    · exact value .callCode two.symm
    · exact value .create three.symm
    · exact value .create2 four.symm

lemma ofNumber_of_known (known : 0 ≤ number ∧ number ≤ 4) :
    ∃ kind : CallKind, kind.number = number ∧ ofNumber number = .ok kind := by
  obtain ⟨kind, rfl⟩ := exists_number_iff.2 known
  exact ⟨kind, rfl, ofNumber_number kind⟩

lemma ofNumber_of_unknown (unknown : ¬ (0 ≤ number ∧ number ≤ 4)) :
    ofNumber number = .error (.unknownCallKind number) := by
  have missing : ofNumber? number = none := by
    rw [ofNumber?, List.find?_eq_none]
    intro kind _ same
    exact unknown (exists_number_iff.1 ⟨kind, beq_iff_eq.1 same⟩)
  rw [ofNumber, missing]

end CallKind

/-! ## The fields at the start of a buffer -/

namespace CallMessage

/-- Enough bytes start with a header. -/
lemma exists_header {buffer : Bytes} (enough : size ≤ buffer.length) :
    ∃ (message : CallMessage) (number : Int32) (padding rest : Bytes), padding.length = 4 ∧
      buffer = message.header number padding ++ rest := by
  obtain ⟨number, bytes, rfl, behindNumber⟩ := Field.int32.exists_encode 136 enough
  obtain ⟨flags, bytes, rfl, behindFlags⟩ := Field.uint32.exists_encode 132 behindNumber
  obtain ⟨depth, bytes, rfl, behindDepth⟩ := Field.uint32.exists_encode 128 behindFlags
  obtain ⟨padding, bytes, rfl, behindPadding⟩ := (Field.bytes 4).exists_encode 124 behindDepth
  obtain ⟨gas, bytes, rfl, behindGas⟩ := Field.int64.exists_encode 116 behindPadding
  obtain ⟨destination, bytes, rfl, behindDestination⟩ :=
    (Field.bytes 20).exists_encode 96 behindGas
  obtain ⟨sender, bytes, rfl, behindSender⟩ := (Field.bytes 20).exists_encode 76 behindDestination
  obtain ⟨inputOffset, bytes, rfl, behindInputOffset⟩ := Field.uint64.exists_encode 68 behindSender
  obtain ⟨inputSize, bytes, rfl, behindInputSize⟩ :=
    Field.uint32.exists_encode 64 behindInputOffset
  obtain ⟨value, bytes, rfl, behindValue⟩ := (Field.bytes 32).exists_encode 32 behindInputSize
  obtain ⟨salt, bytes, rfl, -⟩ := (Field.bytes 32).exists_encode 0 behindValue
  refine ⟨⟨.call, flags, depth, gas, destination, sender, inputOffset, inputSize, value, salt⟩,
    number, padding.toList, bytes, padding.length_toList, ?_⟩
  simp only [header, opening, closing, List.append_assoc]
  rfl

/-- The number at the start of a buffer, which tells the kind of a message. -/
def kindNumber (buffer : Bytes) : Int32 :=
  (UInt32.ofNat (Bytes.littleEndianValue (buffer.take 4))).toInt32

lemma kindNumber_header (message : CallMessage) (number : Int32) (padding rest : Bytes) :
    kindNumber (message.header number padding ++ rest) = number := by
  have width : (Field.int32.encode number).toList.length = 4 := FixedBytes.length_toList _
  have first : (message.header number padding ++ rest).take 4
      = (Field.int32.encode number).toList := by
    rw [header, opening, List.append_assoc, List.append_assoc, List.take_left' width]
  rw [kindNumber, first]
  exact Field.int32.decode_encode number

/-! ## Padding -/

/-- The header at the start of a buffer, with padding of zero bytes. -/
def blanked (buffer : Bytes) : Bytes :=
  buffer.take 12 ++ (List.replicate 4 0 ++ (buffer.take size).drop 16)

lemma blanked_header (message : CallMessage) (number : Int32) {padding : Bytes}
    (length : padding.length = 4) (rest : Bytes) :
    blanked (message.header number padding ++ rest)
      = message.header number (List.replicate 4 0) := by
  have front := message.length_opening number
  have start : (message.opening number ++ padding).length = 16 := by
    rw [List.length_append, front, length]
  have behind : (message.header number padding).drop 16 = message.closing := by
    rw [header, ← List.append_assoc, List.drop_left' start]
  rw [blanked, List.take_left' (message.length_header number length), behind, header,
    List.append_assoc, List.take_left' front, header]

lemma getElem?_blanked {buffer : Bytes} (enough : size ≤ buffer.length) (place : ℕ) :
    (blanked buffer)[place]? = if 12 ≤ place ∧ place < 16 then some 0
      else if place < size then buffer[place]? else none := by
  have front : (buffer.take 12).length = 12 := by
    rw [List.length_take]
    simp only [size] at enough
    omega
  rw [blanked]
  by_cases early : place < 12
  · have here : ¬ (12 ≤ place ∧ place < 16) := by omega
    have inside : place < size := by simp only [size]; omega
    rw [List.getElem?_append_left (by omega), List.getElem?_take_of_lt early, if_neg here,
      if_pos inside]
  · rw [List.getElem?_append_right (by omega), front]
    by_cases padded : place < 16
    · have here : place - 12 < 4 := by omega
      rw [List.getElem?_append_left (by rwa [List.length_replicate]),
        List.getElem?_replicate_of_lt here, if_pos ⟨by omega, padded⟩]
    · have here : ¬ (12 ≤ place ∧ place < 16) := by omega
      have behind : 16 + (place - 12 - 4) = place := by omega
      rw [List.getElem?_append_right (by rw [List.length_replicate]; omega),
        List.length_replicate, List.getElem?_drop, behind, List.getElem?_take, if_neg here]

/-- Two buffers have the same header but for the padding, if they agree everywhere else in it. -/
lemma blanked_eq_iff {buffer other : Bytes} (enough : size ≤ buffer.length)
    (enough' : size ≤ other.length) :
    blanked buffer = blanked other
      ↔ ∀ place < size, ¬ (12 ≤ place ∧ place < 16) → buffer[place]? = other[place]? := by
  constructor
  · intro same place inside apart
    have here := congrArg (fun bytes : Bytes => bytes[place]?) same
    simpa only [getElem?_blanked enough, getElem?_blanked enough', if_neg apart, if_pos inside]
      using here
  · intro agree
    refine List.ext_getElem? fun place => ?_
    rw [getElem?_blanked enough, getElem?_blanked enough']
    split_ifs with padded inside
    · rfl
    · exact agree place inside padded
    · rfl

/-! ## Reading and writing -/

section Decode

variable {buffer : Bytes}

lemma decode_of_short (short : buffer.length < size) :
    CallMessage.decode buffer = .error (.malformed "call message" size buffer.length) := by
  rw [decode, if_pos short]

/-- A long buffer without the number of a kind is refused for this number. -/
lemma decode_of_unknown (enough : size ≤ buffer.length)
    (unknown : ¬ (0 ≤ kindNumber buffer ∧ kindNumber buffer ≤ 4)) :
    CallMessage.decode buffer = .error (.unknownCallKind (kindNumber buffer)) := by
  obtain ⟨message, number, padding, rest, length, rfl⟩ := exists_header enough
  rw [kindNumber_header] at unknown ⊢
  rw [decode_header _ _ length, CallKind.ofNumber_of_unknown unknown]
  rfl

/-- Any other long buffer is read, and its padding is all that is lost. -/
lemma decode_of_known (enough : size ≤ buffer.length)
    (known : 0 ≤ kindNumber buffer ∧ kindNumber buffer ≤ 4) :
    ∃ message, CallMessage.decode buffer = .ok message ∧
      message.encode.toList = blanked buffer := by
  obtain ⟨message, number, padding, rest, length, rfl⟩ := exists_header enough
  rw [kindNumber_header] at known
  obtain ⟨kind, rfl, found⟩ := CallKind.ofNumber_of_known known
  refine ⟨{ message with kind }, ?_, ?_⟩
  · rw [decode_header _ _ length, found]
    rfl
  · rw [encode_toList, blanked_header message _ length]
    rfl

/-- **Writing undoes reading,** but for the padding. -/
theorem encode_of_decode {message : CallMessage}
    (accepted : CallMessage.decode buffer = .ok message) :
    size ≤ buffer.length ∧ message.encode.toList = blanked buffer := by
  by_cases short : buffer.length < size
  · rw [decode_of_short short] at accepted
    cases accepted
  · have enough := not_lt.1 short
    by_cases known : 0 ≤ kindNumber buffer ∧ kindNumber buffer ≤ 4
    · obtain ⟨read, decoded, written⟩ := decode_of_known enough known
      rw [accepted] at decoded
      cases decoded
      exact ⟨enough, written⟩
    · rw [decode_of_unknown enough known] at accepted
      cases accepted

end Decode

lemma encode_injective : Function.Injective encode := by
  intro message other same
  have read := message.decode_encode []
  rw [same, decode_encode] at read
  exact (Except.ok.inj read).symm

/-- **Headers are written and read without loss.**  A header has 140 bytes, four of them zero
padding, and reads back whatever follows it.  A buffer is refused as malformed exactly if it is
shorter, and a longer one is refused for the number at its start exactly if this is no kind;
otherwise it is read, and writing the message again gives the header in the buffer with zero
padding.  So different messages have different headers, and two buffers are read as the same message
exactly if their headers agree outside the padding. -/
theorem header_codec :
    (∀ message : CallMessage, message.encode.toList.length = 140 ∧
      (message.encode.toList.drop 12).take 4 = List.replicate 4 0 ∧
      ∀ rest, CallMessage.decode (message.encode.toList ++ rest) = .ok message) ∧
    (∀ buffer : Bytes,
      CallMessage.decode buffer = .error (.malformed "call message" 140 buffer.length)
        ↔ buffer.length < 140) ∧
    (∀ buffer : Bytes, 140 ≤ buffer.length →
      (CallMessage.decode buffer = .error (.unknownCallKind (kindNumber buffer))
        ↔ ¬ (0 ≤ kindNumber buffer ∧ kindNumber buffer ≤ 4)) ∧
      (0 ≤ kindNumber buffer ∧ kindNumber buffer ≤ 4 →
        ∃ message, CallMessage.decode buffer = .ok message ∧
          message.encode.toList
            = buffer.take 12 ++ (List.replicate 4 0 ++ (buffer.take 140).drop 16))) ∧
    Function.Injective encode ∧
    ∀ (buffer other : Bytes) (message read : CallMessage),
      CallMessage.decode buffer = .ok message → CallMessage.decode other = .ok read →
      (message = read
        ↔ ∀ place < 140, ¬ (12 ≤ place ∧ place < 16) → buffer[place]? = other[place]?) := by
  refine ⟨fun message => ⟨message.encode.length_toList, ?_, message.decode_encode⟩,
    fun buffer => ⟨fun refused => ?_, decode_of_short⟩,
    fun buffer enough => ⟨⟨fun refused known => ?_, decode_of_unknown enough⟩,
      decode_of_known enough⟩,
    encode_injective, fun buffer other message read accepted accepted' => ?_⟩
  · -- the padding of a written header
    rw [encode_toList, header, List.drop_left' (message.length_opening _),
      List.take_left' List.length_replicate]
  · -- a longer buffer is not malformed
    by_contra long
    have enough : size ≤ buffer.length := not_lt.1 long
    by_cases known : 0 ≤ kindNumber buffer ∧ kindNumber buffer ≤ 4
    · obtain ⟨message, decoded, -⟩ := decode_of_known enough known
      rw [refused] at decoded
      cases decoded
    · rw [decode_of_unknown enough known] at refused
      cases refused
  · -- a number that is known is not refused
    obtain ⟨message, decoded, -⟩ := decode_of_known enough known
    rw [refused] at decoded
    cases decoded
  · obtain ⟨enough, written⟩ := encode_of_decode accepted
    obtain ⟨enough', written'⟩ := encode_of_decode accepted'
    rw [← encode_injective.eq_iff, FixedBytes.ext_iff, written, written']
    exact blanked_eq_iff enough enough'

end CallMessage

end ContractHost
