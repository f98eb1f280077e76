import ContractHost.Message
import ContractHost.Proofs.Wire

/-!
# Messages arrive as they were packed

The header of a message reads back field by field (`CallMessage.decode_encode`), and the input of a
packed message is found where packing put it.  So an engine that unpacks what it is handed gets the
message and the input that its host packed, but for the two fields that say where the input lies:
**`CallMessage.unpack_packed`**.

What comes of any other buffer with a header is decided by the end of its input alone, computed as a
number that does not wrap around: `CallMessage.inputEnd`, `CallMessage.unpack_of_accepted`.
-/

namespace ContractHost

/-- A kind of call is found by its number. -/
lemma CallKind.ofNumber_number (kind : CallKind) : CallKind.ofNumber kind.number = .ok kind := by
  cases kind <;> rfl

namespace CallMessage

/-- The fields in front of the padding, with any number for the kind. -/
def opening (number : Int32) (message : CallMessage) : Bytes :=
  (Field.int32.encode number).toList
    ++ ((Field.uint32.encode message.flags).toList
    ++ (Field.uint32.encode message.depth).toList)

/-- The fields behind the padding. -/
def closing (message : CallMessage) : Bytes :=
  (Field.int64.encode message.gas).toList
    ++ (((Field.bytes 20).encode message.destination).toList
    ++ (((Field.bytes 20).encode message.sender).toList
    ++ ((Field.uint64.encode message.inputOffset).toList
    ++ ((Field.uint32.encode message.inputSize).toList
    ++ (((Field.bytes 32).encode message.value).toList
    ++ ((Field.bytes 32).encode message.salt).toList)))))

/-- The bytes of a header, with any number for the kind and any padding. -/
def header (number : Int32) (padding : Bytes) (message : CallMessage) : Bytes :=
  message.opening number ++ (padding ++ message.closing)

@[simp] lemma length_opening (message : CallMessage) (number : Int32) :
    (message.opening number).length = 12 := by
  simp [opening, Field.width]

@[simp] lemma length_closing (message : CallMessage) : message.closing.length = 124 := by
  simp [closing, Field.width]

lemma length_header (message : CallMessage) (number : Int32) {padding : Bytes}
    (length : padding.length = 4) : (message.header number padding).length = size := by
  simp [header, length, size]

/-- A message is written with the number of its kind and zero padding. -/
lemma encode_toList (message : CallMessage) :
    message.encode.toList = message.header message.kind.number (List.replicate 4 0) := by
  simp (disch := decide) only [header, opening, closing, encode, Cursor.blank_eq_upTo,
    Cursor.write_upTo, Cursor.pad_upTo, Cursor.buffer_upTo_full, List.nil_append,
    List.append_assoc]

/-- What is read from a header depends on neither its padding nor what follows it. -/
theorem decode_header (message : CallMessage) (number : Int32) {padding : Bytes}
    (length : padding.length = 4) (rest : Bytes) :
    CallMessage.decode (message.header number padding ++ rest)
      = (CallKind.ofNumber number).map fun kind => { message with kind } := by
  have enough : ¬ (message.header number padding ++ rest).length < size := by
    rw [List.length_append, length_header message number length]
    omega
  rw [decode, if_neg enough, header, opening, closing]
  simp only [List.append_assoc, Cursor.start_eq_between, Cursor.read_between, Cursor.lift_ok,
    Cursor.skip_between _ length, bind, Except.bind]
  cases CallKind.ofNumber number <;> rfl

/-- **A message reads back,** whatever follows it in the buffer. -/
theorem decode_encode (message : CallMessage) (rest : Bytes) :
    CallMessage.decode (message.encode.toList ++ rest) = .ok message := by
  rw [encode_toList, decode_header _ _ List.length_replicate, CallKind.ofNumber_number]
  rfl

/-! ## Messages with their input -/

/-- Where the input ends, which need not be a place. -/
def inputEnd (message : CallMessage) : ℕ := message.inputOffset.toNat + message.inputSize.toNat

section Unpack

variable {buffer : Bytes} {message : CallMessage}

lemma unpack_of_refused {fault : Fault} (refused : decode buffer = .error fault) :
    unpack buffer = .error fault := by
  simp only [unpack, refused, bind, Except.bind]

/-- The end of the input decides whether it is found. -/
lemma unpack_of_accepted (accepted : decode buffer = .ok message) :
    unpack buffer
      = if message.inputSize = 0 then .ok (message, [])
        else if message.inputEnd ≤ min buffer.length lengthLimit then
          .ok (message, (buffer.drop message.inputOffset.toNat).take message.inputSize.toNat)
        else .error (.malformed "message input" (min message.inputEnd lengthLimit)
          buffer.length) := by
  have none_iff : message.inputSize.toNat = 0 ↔ message.inputSize = 0 := UInt32.toNat_inj (b := 0)
  simp only [unpack, accepted, bind, Except.bind, none_iff, inputEnd, le_min_iff]
  split_ifs with empty large found cut found found
  · rfl
  · exact absurd found.2 (not_le.2 large)
  · rw [min_eq_right large.le]
    rfl
  · exact absurd found.1 (not_le.2 cut)
  · rw [min_eq_left (not_lt.1 large)]
    rfl
  · rfl
  · exact absurd ⟨not_lt.1 cut, not_lt.1 large⟩ found

/-- What it takes to read a message with its input. -/
lemma unpack_eq_ok_iff {input : Bytes} :
    unpack buffer = .ok (message, input)
      ↔ decode buffer = .ok message ∧
        (message.inputSize = 0 ∧ input = [] ∨
          message.inputSize ≠ 0 ∧ message.inputEnd ≤ min buffer.length lengthLimit ∧
            input = (buffer.drop message.inputOffset.toNat).take message.inputSize.toNat) := by
  constructor
  · intro found
    cases read : decode buffer with
    | error fault =>
        rw [unpack_of_refused read] at found
        cases found
    | ok header =>
        rw [unpack_of_accepted read] at found
        split_ifs at found with empty inside
        · cases found
          exact ⟨rfl, Or.inl ⟨empty, rfl⟩⟩
        · cases found
          exact ⟨rfl, Or.inr ⟨empty, inside, rfl⟩⟩
  · rintro ⟨accepted, ⟨empty, rfl⟩ | ⟨sized, inside, rfl⟩⟩
    · rw [unpack_of_accepted accepted, if_pos empty]
    · rw [unpack_of_accepted accepted, if_neg sized, if_pos inside]

/-- The input of a message that was read has a size of 32 bits. -/
lemma length_of_unpack {input : Bytes} (readable : unpack buffer = .ok (message, input)) :
    input.length < UInt32.size := by
  obtain ⟨-, ⟨-, rfl⟩ | ⟨-, -, rfl⟩⟩ := unpack_eq_ok_iff.1 readable
  · decide
  · exact lt_of_le_of_lt (List.length_take_le _ _) message.inputSize.toNat_lt

/-- So it can be packed with any message. -/
lemma pack_of_unpack {input : Bytes} (readable : unpack buffer = .ok (message, input))
    (sent : CallMessage) : ∃ handed, sent.pack input = .ok handed :=
  ⟨_, if_pos (length_of_unpack readable)⟩

end Unpack

/-- **A packed message unpacks to itself and its input.** -/
theorem unpack_packed {message : CallMessage} {input packed : Bytes}
    (packs : message.pack input = .ok packed) :
    CallMessage.unpack packed = .ok (message.withInput input.length, input) := by
  unfold pack at packs
  split_ifs at packs with fits
  obtain rfl := Except.ok.inj packs
  -- the header says that the input lies right behind it
  have first : (message.withInput input.length).inputOffset.toNat = size := rfl
  have count : (message.withInput input.length).inputSize.toNat = input.length :=
    UInt32.toNat_ofNat_of_lt fits
  have header : (message.withInput input.length).encode.toList.length = size :=
    FixedBytes.length_toList _
  have representable : size + input.length ≤ lengthLimit := by
    simp only [lengthLimit, size, UInt64.size, UInt32.size] at fits ⊢
    omega
  have inside : (message.withInput input.length).inputEnd
      ≤ min ((message.withInput input.length).encode.toList ++ input).length lengthLimit := by
    rw [inputEnd, first, count, List.length_append, header]
    exact le_min le_rfl representable
  rw [unpack_of_accepted (decode_encode _ input), if_pos inside, first, count,
    List.drop_left' header, List.take_length]
  split_ifs with empty
  · rw [empty] at count
    rw [List.length_eq_zero_iff.1 count.symm]
  · rfl

end CallMessage

end ContractHost
