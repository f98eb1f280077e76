import ContractHost.Word

/-!
# Instructions of the machine

The machine runs byte code.  Each instruction is one byte, except that a push is followed by the
bytes it pushes, one to thirty-two of them.  Where the code ends before they are complete, the
missing ones are zero.

* `Instruction.ofOpcode` names the instruction of a byte that is no push.
* `Instruction.fetch` reads the instruction at a place in the code, and how many bytes it takes.
-/

namespace ContractHost.Machine

/-- An instruction. -/
inductive Instruction where
  | stop
  /-- Adds two numbers of 32 bits. -/
  | add
  | address
  /-- Replaces an address by its balance. -/
  | balance
  /-- Replaces an offset by the 32 bytes of input there. -/
  | callDataLoad
  | blockNumber
  | memoryStore
  /-- Replaces a key by the value of the slot. -/
  | slotLoad
  | slotStore
  | memorySize
  /-- Pushes a word from the code. -/
  | push (word : Word)
  /-- Pushes the word on top once more. -/
  | duplicate
  /-- Leaves a log entry with a number of topics. -/
  | log (topics : Nat)
  | call
  /-- Ends the run, with a region of memory as its output. -/
  | returnData
  /-- Ends the run and undoes it. -/
  | revert
  /-- Registers the running contract for destruction and ends the run. -/
  | selfDestruct
  | undefined
deriving DecidableEq

namespace Instruction

/-- The instruction of a byte that is no push. -/
def ofOpcode (opcode : UInt8) : Instruction :=
  match opcode.toNat with
  | 0x00 => .stop
  | 0x01 => .add
  | 0x30 => .address
  | 0x31 => .balance
  | 0x35 => .callDataLoad
  | 0x43 => .blockNumber
  | 0x52 => .memoryStore
  | 0x54 => .slotLoad
  | 0x55 => .slotStore
  | 0x59 => .memorySize
  | 0x80 => .duplicate
  | 0xa0 => .log 0
  | 0xa1 => .log 1
  | 0xa2 => .log 2
  | 0xa3 => .log 3
  | 0xa4 => .log 4
  | 0xf1 => .call
  | 0xf3 => .returnData
  | 0xfd => .revert
  | 0xff => .selfDestruct
  | _ => .undefined

/-- How many bytes a byte of code pushes; none if it is no push. -/
def pushWidth (opcode : UInt8) : Nat :=
  if 0x60 ≤ opcode ∧ opcode ≤ 0x7f then opcode.toNat - 0x5f else 0

/-- The word that `width` bytes push, of which only the first ones may be there. -/
def immediate (width : Nat) (bytes : Bytes) : Word :=
  Word.ofNat (Bytes.bigEndianValue (bytes ++ List.replicate (width - bytes.length) 0))

/-- The instruction at a place in the code, and how many bytes it takes. -/
def fetch (code : Array UInt8) (place : Nat) (inside : place < code.size) : Instruction × Nat :=
  let opcode := code[place]
  let width := pushWidth opcode
  if width = 0 then (ofOpcode opcode, 1)
  else (.push (immediate width (code.extract (place + 1) (place + 1 + width)).toList), 1 + width)

end Instruction

end ContractHost.Machine
