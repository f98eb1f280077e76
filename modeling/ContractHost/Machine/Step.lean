import ContractHost.Address
import ContractHost.Engine.Program
import ContractHost.Machine.Instruction
import ContractHost.Machine.State
import ContractHost.Message

/-!
# What an instruction does

An instruction changes the state of the machine, ends the run, or first turns to the host: it asks
one question or makes one call, and goes on according to the answer.  `Step` is this behaviour as
data, and `execute` gives it for every instruction.

Numbers have 32 bits: where an instruction expects one, it takes the low 32 bits of a word.
Instructions that change something outside the machine are not allowed in a static call.
-/

namespace ContractHost.Machine

/-- What stays the same during a run. -/
structure Setting where
  revision : Revision
  message : CallMessage
  input : Bytes
deriving DecidableEq

inductive Step where
  | next (state : State)
  | halt (result : Result)
  | ask (query : Query) (after : query.Answer → Step)
  | call (message : Bytes) (after : Reply → Step)

/-- A step that ends the run if the status says so. -/
def Step.attempt : Except Status Step → Step
  | .ok step => step
  | .error status => .halt (Result.failure status)

/-- A step to a state, unless the run ends on the way there. -/
def Step.proceed (state : Except Status State) : Step := attempt (state.map next)

/-! ## Parts of instructions -/

/-- Nothing happens, unless changes are forbidden. -/
def requireMutable (setting : Setting) : Except Status Unit :=
  if setting.message.isStatic then .error .staticModeViolation else .ok ()

/-- The 32 bytes of input at an offset; beyond its end the input is zero. -/
def inputWord (input : Bytes) (offset : Nat) : Word :=
  FixedBytes.leftAligned ((input.drop offset).take 32) (List.length_take_le ..)

/-- The word that a balance answer stands for; an unknown balance is zero. -/
def balanceWord (answer : Bytes) : Except Status Word :=
  match Word.ofBytes answer with
  | .ok word => .ok word
  | .error _ => .error .internalError

/-- The low 32 bits of the block number. -/
def blockNumber32 (answer : FixedBytes TxContext.size) : Except Status UInt32 :=
  match TxContext.decode answer.toList with
  | .ok context => .ok context.blockNumber.toUInt64.toUInt32
  | .error _ => .error .internalError

/-- Takes the offset and the size of a region off the stack and makes it active. -/
def popRegion (state : State) : Except Status (Bytes × State) := do
  let (offset, state) ← state.pop32
  let (count, state) ← state.pop32
  let state ← state.expand offset count
  return (state.memory.region offset count, state)

/-- One if the reply tells of a success, zero otherwise. -/
def replyFlag (reply : Reply) : UInt32 :=
  match Result.decode reply.toList with
  | .ok result => if result.isSuccess then 1 else 0
  | .error _ => 0

/-! ## Instructions -/

/-- Leaves a log entry.  From the top, the stack holds the offset and the size of the data in
memory, and the topics. -/
def executeLog (setting : Setting) (state : State) (topicCount : Nat) : Except Status Step := do
  requireMutable setting
  let (offset, state) ← state.pop32
  let (count, state) ← state.pop32
  let (topics, state) ← state.popMany topicCount
  let state ← state.expand offset count
  return .ask (.log setting.message.destination (state.memory.region offset count) topics) fun
    | .ok () => .next state
    | .error _ => .halt (Result.failure .failure)

/-- Calls another contract.  From the top, the stack holds gas, address and value, and the places
of input and output in memory.  The flags are passed on, so a static call stays static; value may
not be sent in one.  Output never comes back, but its place becomes active. -/
def executeCall (setting : Setting) (state : State) : Except Status Step := do
  let (gas, state) ← state.pop32
  let (destination, state) ← state.pop
  let (value, state) ← state.pop
  let (inputOffset, state) ← state.pop32
  let (inputSize, state) ← state.pop32
  let (outputOffset, state) ← state.pop32
  let (outputSize, state) ← state.pop32
  if setting.message.isStatic && !value.isZero then throw .staticModeViolation
  let state ← state.expand inputOffset inputSize
  let input := state.memory.region inputOffset inputSize
  let state ← state.expand outputOffset outputSize
  let message : CallMessage := {
    kind := .call
    flags := setting.message.flags
    depth := deeper setting.message.depth
    gas := Int64.ofNat gas.toNat
    destination := Address.ofWord destination
    sender := setting.message.destination
    inputOffset := 0
    inputSize := 0
    value
    salt := Word.zero }
  match message.pack input with
  | .error _ => throw .failure
  | .ok packed => return .call packed fun reply => Step.proceed (state.push32 (replyFlag reply))

def execute (setting : Setting) (state : State) : Instruction → Step
  | .stop => .halt (Result.success state.gasLeft)
  | .add => Step.proceed do
    let (a, state) ← state.pop32
    let (b, state) ← state.pop32
    state.push32 (a + b)
  | .address => Step.proceed (state.push setting.message.destination.toWord)
  | .balance => Step.attempt do
    let (word, state) ← state.pop
    return .ask (.balance (Address.ofWord word)) fun answer => Step.proceed do
      state.push (← balanceWord answer)
  | .callDataLoad => Step.proceed do
    let (offset, state) ← state.pop32
    state.push (inputWord setting.input offset.toNat)
  | .blockNumber => .ask .txContext fun answer => Step.proceed do
    state.push32 (← blockNumber32 answer)
  | .memoryStore => Step.proceed do
    let (offset, state) ← state.pop32
    let (word, state) ← state.pop
    let memory ← state.memory.store offset word
    return { state with memory }
  | .slotLoad => Step.attempt do
    let (key, state) ← state.pop
    return .ask (.slot setting.message.destination key) fun value =>
      Step.proceed (state.push value)
  | .slotStore => Step.attempt do
    requireMutable setting
    let (key, state) ← state.pop
    let (value, state) ← state.pop
    return .ask (.setSlot setting.message.destination key value) fun _ => .next state
  | .memorySize => Step.proceed (state.push32 (UInt32.ofNat state.memory.size))
  | .push word => Step.proceed (state.push word)
  | .duplicate => Step.proceed do
    let (word, state) ← state.pop
    let state ← state.push word
    state.push word
  | .log topicCount => Step.attempt (executeLog setting state topicCount)
  | .call => Step.attempt (executeCall setting state)
  | .returnData => Step.attempt do
    let (_, state) ← popRegion state
    return .halt (Result.success state.gasLeft)
  | .revert => Step.attempt do
    if !setting.revision.definesRevert then throw .undefinedInstruction
    let (_, state) ← popRegion state
    return .halt (Result.revert state.gasLeft)
  | .selfDestruct => Step.attempt do
    requireMutable setting
    let (word, _) ← state.pop
    return .ask (.destroy setting.message.destination (Address.ofWord word)) fun _ =>
      .halt (Result.success state.gasLeft)
  | .undefined => .halt (Result.failure .undefinedInstruction)

end ContractHost.Machine
