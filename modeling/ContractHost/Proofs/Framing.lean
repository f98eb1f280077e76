import ContractHost.Proofs.Codec
import ContractHost.Proofs.GuardedWire

/-!
# Where the input of a message may lie

A header says where the input starts, with 64 bits, and how long it is, with 32.  Whoever wrote the
header chose both, so the input may be said to lie behind the end of the buffer, or behind every
place that there is.  What is found is then decided by the end of the input alone, computed as a
number that does not wrap around (`CallMessage.unpack_of_accepted`).

* `CallMessage.unpack_eq_slice_iff`, `CallMessage.unpack_of_cut` — when an input is found, and what
  comes of the others.
* `CallMessage.unpack_append` — a buffer that was read is read alike whatever follows it.
* **`CallMessage.unpack_framing`** — all of it, for packed messages and for any buffer.
-/

namespace ContractHost.CallMessage

section Unpack

variable {buffer : Bytes} {message : CallMessage}

/-- An input that is not empty is found exactly if it lies in the buffer. -/
lemma unpack_eq_slice_iff (accepted : decode buffer = .ok message)
    (sized : message.inputSize ≠ 0) (countable : buffer.length ≤ lengthLimit) :
    unpack buffer
        = .ok (message, (buffer.drop message.inputOffset.toNat).take message.inputSize.toNat)
      ↔ message.inputEnd ≤ buffer.length := by
  rw [unpack_eq_ok_iff, min_eq_left countable]
  simp [accepted, sized]

/-- An input that ends behind the buffer is refused, and the fault names its end. -/
lemma unpack_of_cut (accepted : decode buffer = .ok message) (sized : message.inputSize ≠ 0)
    (cut : buffer.length < message.inputEnd) :
    unpack buffer
      = .error (.malformed "message input" (min message.inputEnd lengthLimit) buffer.length) := by
  have outside : ¬ message.inputEnd ≤ min buffer.length lengthLimit :=
    fun inside => not_le.2 cut (le_min_iff.1 inside).1
  rw [unpack_of_accepted accepted, if_neg sized, if_neg outside]

/-- A header is read alike whatever follows the buffer that it was read from. -/
lemma decode_append (accepted : decode buffer = .ok message) (rest : Bytes) :
    decode (buffer ++ rest) = .ok message := by
  obtain ⟨fields, number, padding, behind, length, rfl⟩ :=
    exists_header (encode_of_decode accepted).1
  rw [decode_header fields number length] at accepted
  rw [List.append_assoc, decode_header fields number length, accepted]

/-- So is a message with its input. -/
theorem unpack_append {input : Bytes} (found : unpack buffer = .ok (message, input))
    (rest : Bytes) : unpack (buffer ++ rest) = .ok (message, input) := by
  rw [unpack_eq_ok_iff] at found ⊢
  obtain ⟨accepted, ⟨empty, rfl⟩ | ⟨sized, inside, rfl⟩⟩ := found
  · exact ⟨decode_append accepted rest, Or.inl ⟨empty, rfl⟩⟩
  · have longer : buffer.length ≤ (buffer ++ rest).length := by simp
    have whole : message.inputEnd ≤ buffer.length := (le_min_iff.1 inside).1
    have enough : message.inputSize.toNat ≤ (buffer.drop message.inputOffset.toNat).length := by
      rw [List.length_drop]
      exact Nat.le_sub_of_add_le' whole
    refine ⟨decode_append accepted rest,
      Or.inr ⟨sized, inside.trans (min_le_min_right _ longer), ?_⟩⟩
    rw [List.drop_append_of_le_length (le_self_add.trans whole),
      List.take_append_of_le_length enough]

end Unpack

/-- **What a header says about the input is followed exactly as far as the buffer reaches.**  A
packed message gives back itself and its input, whatever follows it, and then says that the input
lies right behind the header.  For any buffer, no byte outside it is looked at.  If there is no
header, the fault is the one of reading the header.  An input without bytes may be said to lie
anywhere.  Any other is found exactly if its end is not behind the end of the buffer, which has no
more bytes than can be counted with 64 bits; if it is behind it, the fault names the place that was
needed, or the last place that there is. -/
theorem unpack_framing :
    (∀ (message : CallMessage) (input rest : Bytes), input.length < 2 ^ 32 →
      ∃ packed read, message.pack input = .ok packed ∧
        unpack (packed ++ rest) = .ok (read, input) ∧
        read.inputOffset.toNat = 140 ∧ read.inputSize.toNat = input.length ∧
        read = { message with inputOffset := read.inputOffset, inputSize := read.inputSize }) ∧
    ∀ buffer : Bytes,
      Machine.Guarded.Reads (Machine.Guarded.unpack buffer) (unpack buffer) ∧
      (∀ fault, decode buffer = .error fault → unpack buffer = .error fault) ∧
      ∀ message, decode buffer = .ok message →
        (message.inputSize = 0 → unpack buffer = .ok (message, [])) ∧
        (message.inputSize ≠ 0 →
          (buffer.length < 2 ^ 64 →
            (unpack buffer
                = .ok (message,
                  (buffer.drop message.inputOffset.toNat).take message.inputSize.toNat)
              ↔ message.inputEnd ≤ buffer.length)) ∧
          (buffer.length < message.inputEnd →
            unpack buffer
              = .error (.malformed "message input" (min message.inputEnd (2 ^ 64 - 1))
                buffer.length))) := by
  constructor
  · intro message input rest small
    have packs : message.pack input
        = .ok ((message.withInput input.length).encode.toList ++ input) := if_pos small
    exact ⟨_, _, packs, unpack_append (unpack_packed packs) rest, rfl,
      UInt32.toNat_ofNat_of_lt small, rfl⟩
  · intro buffer
    refine ⟨Machine.Guarded.unpack_reads buffer, fun fault => unpack_of_refused, ?_⟩
    intro message accepted
    constructor
    · intro empty
      exact unpack_eq_ok_iff.2 ⟨accepted, Or.inl ⟨empty, rfl⟩⟩
    · intro sized
      refine ⟨fun countable => ?_, unpack_of_cut accepted sized⟩
      exact unpack_eq_slice_iff accepted sized (Nat.le_pred_of_lt countable)

/-- A message whose input is the part of its own header that says where the input lies. -/
def selfQuoting : CallMessage :=
  { CallMessage.plain Address.zero Address.zero 0 with inputOffset := 64, inputSize := 12 }

/-- A message whose input is said to be the byte behind every place that there is. -/
def beyondAll : CallMessage :=
  { CallMessage.plain Address.zero Address.zero 0 with
    inputOffset := 18446744073709551615, inputSize := 1 }

/-- An input inside the header is found, and one whose end has no place is refused. -/
theorem selfQuoting_unpacked :
    unpack selfQuoting.encode.toList
      = .ok (selfQuoting, [64, 0, 0, 0, 0, 0, 0, 0, 12, 0, 0, 0]) ∧
    unpack beyondAll.encode.toList
      = .error (.malformed "message input" 18446744073709551615 140) := by
  have length (message : CallMessage) : message.encode.toList.length = 140 :=
    message.encode.length_toList
  have read (message : CallMessage) : decode message.encode.toList = .ok message := by
    simpa using message.decode_encode []
  obtain ⟨-, framing⟩ := unpack_framing
  constructor
  · obtain ⟨-, -, headed⟩ := framing selfQuoting.encode.toList
    have place : (selfQuoting.encode.toList.drop selfQuoting.inputOffset.toNat).take
        selfQuoting.inputSize.toNat = [64, 0, 0, 0, 0, 0, 0, 0, 12, 0, 0, 0] := by
      decide +kernel
    rw [← place]
    refine (((headed selfQuoting (read _)).2 (by decide)).1 ?_).2 ?_
    · rw [length]
      decide
    · rw [length]
      decide
  · obtain ⟨-, -, headed⟩ := framing beyondAll.encode.toList
    have cut : beyondAll.encode.toList.length < beyondAll.inputEnd := by
      rw [length]
      decide
    rw [((headed beyondAll (read _)).2 (by decide)).2 cut, length]
    rfl

end ContractHost.CallMessage
