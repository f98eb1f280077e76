import ContractHost.Fault
import ContractHost.Word

/-!
# State of the machine

A running machine has gas, a stack of words and a memory of bytes.  Stack and memory are bounded:
a push onto a full stack, a pop from an empty one and an access beyond the end of memory end the
run with a status of their own.

Memory is active up to a size that only grows: an access makes it active up to the end of what was
accessed, even if that is no byte at all.  Beyond the active size it holds zeros.
-/

namespace ContractHost.Machine

/-! ## Memory -/

/-- The largest size of memory in bytes. -/
def memoryLimit : Nat := 1024

structure Memory where
  /-- All bytes, active or not. -/
  bytes : FixedBytes memoryLimit := FixedBytes.zero memoryLimit
  size : Nat := 0
deriving DecidableEq

namespace Memory

def expand (memory : Memory) (offset count : UInt32) : Except Status Memory :=
  let stop := offset.toNat + count.toNat
  if stop ≤ memoryLimit then .ok { memory with size := max memory.size stop }
  else .error .failure

def region (memory : Memory) (offset count : UInt32) : Bytes :=
  (memory.bytes.toList.drop offset.toNat).take count.toNat

/-- Writes a word and makes its bytes active. -/
def store (memory : Memory) (offset : UInt32) (word : Word) : Except Status Memory :=
  if fits : offset.toNat + word.toList.length ≤ memoryLimit then
    .ok {
      bytes := memory.bytes.splice offset.toNat word.toList fits
      size := max memory.size (offset.toNat + word.toList.length) }
  else .error .failure

end Memory

/-! ## The state -/

/-- The largest number of words on the stack. -/
def stackLimit : Nat := 1024

structure State where
  gasLeft : Int64
  /-- The words on the stack, the top one first. -/
  stack : List Word := []
  memory : Memory := {}
deriving DecidableEq

namespace State

def push (state : State) (word : Word) : Except Status State :=
  if state.stack.length < stackLimit then .ok { state with stack := word :: state.stack }
  else .error .stackOverflow

/-- Puts a number of 32 bits on the stack. -/
def push32 (state : State) (n : UInt32) : Except Status State := state.push (Word.ofNat n.toNat)

/-- Takes the word on top off the stack. -/
def pop (state : State) : Except Status (Word × State) :=
  match state.stack with
  | word :: below => .ok (word, { state with stack := below })
  | [] => .error .stackUnderflow

/-- Takes a word off the stack of which only the low 32 bits count. -/
def pop32 (state : State) : Except Status (UInt32 × State) :=
  match state.pop with
  | .ok (word, state) => .ok (word.low32, state)
  | .error status => .error status

/-- Takes a number of words off the stack, the top one first. -/
def popMany : (count : Nat) → State → Except Status (List Word × State)
  | 0, state => .ok ([], state)
  | count + 1, state => do
    let (word, state) ← state.pop
    let (words, state) ← popMany count state
    return (word :: words, state)

def expand (state : State) (offset count : UInt32) : Except Status State :=
  match state.memory.expand offset count with
  | .ok memory => .ok { state with memory }
  | .error status => .error status

end State

end ContractHost.Machine
