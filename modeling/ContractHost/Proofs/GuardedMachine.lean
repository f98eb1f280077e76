import ContractHost.Proofs.Disassembly
import ContractHost.Proofs.GuardedWire

/-!
# The machine under guards

The machine once more, as it works on places in memory: words are cut into stretches and put
together from them, the place in the code is moved by hand, and every sum, difference, stretch and
copy is guarded (`Guarded.start`).  The states between the parts of an instruction are visible as
well, as is the memory that an instruction made active before it failed.

For single words no guard is ever in the way, and what is cut and copied is what the machine has as
numbers and aligned bytes: `Guarded.low32_eq`, `Guarded.addressOf_eq`, `Guarded.balanceWord_eq`,
`Guarded.inputWord_eq`, `Guarded.operand_eq` and others.  An input has fewer bytes than there are
places, and code has fewer than half as many.
-/

namespace ContractHost.Machine

namespace Guarded

/-! ## Words and addresses -/

/-- The low 32 bits of a word. -/
def low32 (word : Word) : Guarded UInt32 := do
  let bytes ← slice word.toList 28 32
  let low ← copy (FixedBytes.zero 4) 0 4 bytes
  return UInt32.ofNat (Bytes.bigEndianValue low.toList)

def word32 (n : UInt32) : Guarded Word := copy Word.zero 16 32 (Bytes.bigEndian 16 n.toNat)

def addressOf (word : Word) : Guarded Address := do
  let bytes ← slice word.toList 12 32
  copy Address.zero 0 20 bytes

def addressWord (address : Address) : Guarded Word := copy Word.zero 12 32 address.toList

/-- The word that a balance answer stands for. -/
def balanceWord (answer : Bytes) : Guarded Word :=
  if answer.isEmpty then done Word.zero
  else if 32 < answer.length then fail .internalError
  else do
    let first ← sub 32 answer.length
    copy Word.zero first 32 answer

/-- The low 32 bits of the block number. -/
def blockNumber32 (answer : FixedBytes TxContext.size) : Guarded UInt32 := do
  match ← (decodeContext answer.toList).run with
  | .ok context => done context.blockNumber.toUInt64.toUInt32
  | .error _ => fail .internalError

/-- One if the reply tells of a success, zero otherwise. -/
def replyFlag (reply : Reply) : Guarded UInt32 := do
  match ← (decodeResult reply.toList).run with
  | .ok result => done (if result.isSuccess then 1 else 0)
  | .error _ => done 0

/-- The 32 bytes of input at an offset. -/
def inputWord (input : Bytes) (offset : Nat) : Guarded Word :=
  if offset < input.length then do
    let behind ← sub input.length offset
    let count := min behind 32
    let last ← add placeLimit offset count
    let bytes ← slice input offset last
    copy Word.zero 0 count bytes
  else done Word.zero

/-- The word that the push at a place pushes.  The code may have only some of its bytes, or none,
and then the stretch that is copied ends where the code does. -/
def operand (code : Bytes) (place width : Nat) : Guarded Word := do
  let next ← add placeLimit place 1
  let stop ← add placeLimit next width
  let first := min next code.length
  let last := min stop code.length
  let left ← sub 32 width
  let count ← sub last first
  let right ← add placeLimit left count
  let bytes ← slice code first last
  copy Word.zero left right bytes

/-! ## Stack and memory -/

def pop (state : State) : Guarded (Word × State) :=
  match state.stack with
  | word :: below => pass { state with stack := below } (done (word, { state with stack := below }))
  | [] => fail .stackUnderflow

def pop32 (state : State) : Guarded (UInt32 × State) := do
  let (word, state) ← pop state
  let n ← low32 word
  return (n, state)

def popMany : (count : Nat) → State → Guarded (List Word × State)
  | 0, state => done ([], state)
  | count + 1, state => do
    let (word, state) ← pop state
    let (words, state) ← popMany count state
    return (word :: words, state)

def push (state : State) (word : Word) : Guarded State :=
  if state.stack.length < stackLimit then
    let state := { state with stack := word :: state.stack }
    pass state (done state)
  else fail .stackOverflow

def push32 (state : State) (n : UInt32) : Guarded State := do
  let word ← word32 n
  push state word

/-- The state with memory active up to a place, or further. -/
def grow (state : State) (stop : Nat) : State :=
  { state with memory := { state.memory with size := max state.memory.size stop } }

/-- Makes a region active and takes its bytes. -/
def expand (state : State) (offset count : UInt32) : Guarded (Bytes × State) :=
  let stop := offset.toNat + count.toNat
  -- a sum that does not fit is refused like any end beyond the limit
  if placeLimit ≤ stop ∨ memoryLimit < stop then fail .failure
  else
    let state := grow state stop
    pass state do
      let bytes ← slice state.memory.bytes.toList offset.toNat stop
      return (bytes, state)

/-- Writes a word to memory. -/
def store (state : State) (offset : UInt32) (word : Word) : Guarded State := do
  let (region, state) ← expand state offset 32
  let last ← add placeLimit offset.toNat region.length
  let bytes ← copy state.memory.bytes offset.toNat last word.toList
  let state := { state with memory := { state.memory with bytes } }
  pass state (done state)

def popRegion (state : State) : Guarded (Bytes × State) := do
  let (offset, state) ← pop32 state
  let (count, state) ← pop32 state
  let (region, state) ← expand state offset count
  return (region, state)

/-! ## Instructions -/

/-- What an instruction leads to. -/
inductive Flow where
  | next (state : State)
  | halt (result : Result)

/-- What is left of a run after an instruction. -/
def Flow.andThen (rest : State → Program Unit) : Flow → Program Unit
  | next state => rest state
  | halt result => .finish () result.encode

/-- Goes on from the state that a computation arrives at. -/
def proceed (computation : Guarded State) : Guarded Flow := do
  let state ← computation
  return .next state

def executeLog (setting : Setting) (state : State) (topicCount : Nat) : Guarded Flow := do
  ofExcept (requireMutable setting)
  let (offset, state) ← pop32 state
  let (count, state) ← pop32 state
  let (topics, state) ← popMany topicCount state
  let (data, state) ← expand state offset count
  ask (.log setting.message.destination data topics) fun
    | .ok () => done (.next state)
    | .error _ => fail .failure

def executeCall (setting : Setting) (state : State) : Guarded Flow := do
  let (gas, state) ← pop32 state
  let (word, state) ← pop state
  let destination ← addressOf word
  let (value, state) ← pop state
  let (inputOffset, state) ← pop32 state
  let (inputSize, state) ← pop32 state
  let (outputOffset, state) ← pop32 state
  let (outputSize, state) ← pop32 state
  if setting.message.isStatic && !value.isZero then fail .staticModeViolation
  else do
    let (input, state) ← expand state inputOffset inputSize
    let (_, state) ← expand state outputOffset outputSize
    let message : CallMessage := {
      kind := .call
      flags := setting.message.flags
      depth := deeper setting.message.depth
      gas := Int64.ofNat gas.toNat
      destination
      sender := setting.message.destination
      inputOffset := 0
      inputSize := 0
      value
      salt := Word.zero }
    match ← pack message input with
    | .error _ => fail .failure
    | .ok packed => call packed fun reply => proceed do
      let flag ← replyFlag reply
      push32 state flag

def execute (setting : Setting) (state : State) : Instruction → Guarded Flow
  | .stop => done (.halt (Result.success state.gasLeft))
  | .add => proceed do
    let (a, state) ← pop32 state
    let (b, state) ← pop32 state
    push32 state (a + b)
  | .address => proceed do
    let word ← addressWord setting.message.destination
    push state word
  | .balance => do
    let (word, state) ← pop state
    let address ← addressOf word
    ask (.balance address) fun answer => proceed do
      let word ← balanceWord answer
      push state word
  | .callDataLoad => proceed do
    let (offset, state) ← pop32 state
    let word ← inputWord setting.input offset.toNat
    push state word
  | .blockNumber => ask .txContext fun answer => proceed do
    let number ← blockNumber32 answer
    push32 state number
  | .memoryStore => proceed do
    let (offset, state) ← pop32 state
    let (word, state) ← pop state
    store state offset word
  | .slotLoad => do
    let (key, state) ← pop state
    ask (.slot setting.message.destination key) fun value => proceed (push state value)
  | .slotStore => do
    ofExcept (requireMutable setting)
    let (key, state) ← pop state
    let (value, state) ← pop state
    ask (.setSlot setting.message.destination key value) fun _ => done (.next state)
  | .memorySize => proceed (push32 state (UInt32.ofNat state.memory.size))
  | .push word => proceed (push state word)
  | .duplicate => proceed do
    let (word, state) ← pop state
    let state ← push state word
    push state word
  | .log topicCount => executeLog setting state topicCount
  | .call => executeCall setting state
  | .returnData => do
    let (_, state) ← popRegion state
    return .halt (Result.success state.gasLeft)
  | .revert =>
    if setting.revision.definesRevert then do
      let (_, state) ← popRegion state
      return .halt (Result.revert state.gasLeft)
    else fail .undefinedInstruction
  | .selfDestruct => do
    ofExcept (requireMutable setting)
    let (word, _) ← pop state
    let heir ← addressOf word
    ask (.destroy setting.message.destination heir) fun _ =>
      done (.halt (Result.success state.gasLeft))
  | .undefined => fail .undefinedInstruction

/-- The instruction of a byte that is no push.  A log has as many topics as its byte is above the one
of a log without topics. -/
def instructionOf (opcode : UInt8) : Guarded Instruction :=
  if 0xa0 ≤ opcode ∧ opcode ≤ 0xa4 then do
    let topicCount ← sub opcode.toNat 0xa0
    return .log topicCount
  else done (Instruction.ofOpcode opcode)

/-- The instruction at a place, and the place that it leaves the machine at: behind the bytes that
it pushes, but not yet behind itself. -/
def step (setting : Setting) (code : Bytes) (place : Nat) (state : State) :
    Guarded (Nat × Flow) := do
  let opcode ← byteAt code place
  if 0x60 ≤ opcode ∧ opcode ≤ 0x7f then do
    let above ← sub opcode.toNat 0x60
    let width ← add UInt8.size above 1
    let word ← operand code place width
    let place ← add placeLimit place width
    let state ← push state word
    return (place, .next state)
  else do
    let instruction ← instructionOf opcode
    let flow ← execute setting state instruction
    return (place, flow)

/-- Takes one unit of gas away. -/
def charge (state : State) : Guarded State :=
  if state.gasLeft = Int64.minValue then trap .overflow
  else
    let state := { state with gasLeft := state.gasLeft - 1 }
    pass state (done state)

/-- Runs instructions until one of them ends the run or the code is over.  Where it would take more
of them than the limit, there is a trap. -/
def loop (setting : Setting) (code : Bytes) : (limit place : Nat) → State → Guarded Result
  | 0, _, _ => trap .endless
  | limit + 1, place, state =>
    if place < code.length then do
      let state ← charge state
      if state.gasLeft < 0 then fail .outOfGas
      else do
        let (place, flow) ← step setting code place state
        match flow with
        | .halt result => done result
        | .next state => do
          let place ← add placeLimit place 1
          loop setting code limit place state
    else done (Result.success state.gasLeft)

/-- The run on a packed message. -/
def start (revision : Revision) (handed code : Bytes) : Guarded Result := do
  match ← (unpack handed).run with
  | .ok (message, input) =>
    let state : State := { gasLeft := message.gas }
    pass state (loop { revision, message, input } code (code.length + 1) 0 state)
  | .error _ => fail .internalError

/-! ## Guards that hold -/

/-- The end of a word is always there. -/
lemma slice_word (word : Word) {first : ℕ} (inside : first ≤ 32) :
    slice word.toList first 32 = done (word.toList.drop first) := by
  rw [slice_eq inside word.length_toList.ge, List.take_of_length_le word.length_toList.le]

lemma low32_eq (word : Word) : low32 word = done word.low32 := by
  have length : 0 + (word.toList.drop 28).length = 4 := by simp
  rw [low32, slice_word word (by decide), done_bind, copy_eq _ length (by decide), done_bind,
    FixedBytes.splice_whole _ length, Word.low32, pure_eq]

lemma addressOf_eq (word : Word) : addressOf word = done (Address.ofWord word) := by
  have length : 0 + (word.toList.drop 12).length = 20 := by simp
  rw [addressOf, slice_word word (by decide), done_bind, copy_eq _ length (by decide),
    FixedBytes.splice_whole _ length, Address.ofWord]

lemma addressWord_eq (address : Address) : addressWord address = done address.toWord := by
  have length : 12 + address.toList.length = 32 := by simp
  rw [addressWord, copy_eq _ length (by decide), Word.zero, FixedBytes.splice_zero_back length,
    Address.toWord]

lemma word32_eq (n : UInt32) : word32 n = done (Word.ofNat n.toNat) := by
  have length : 16 + (Bytes.bigEndian 16 n.toNat).length = 32 := by simp
  have small : n.toNat < 256 ^ 16 := n.toNat_lt.trans (by decide)
  rw [word32, copy_eq _ length (by decide), Word.zero, FixedBytes.splice_zero_back length,
    Word.ofNat_eq_rightAligned small]

lemma balanceWord_eq (answer : Bytes) :
    balanceWord answer = ofExcept (Machine.balanceWord answer) := by
  rw [balanceWord, Machine.balanceWord, Word.ofBytes]
  by_cases unknown : answer.isEmpty = true
  · rw [List.isEmpty_iff] at unknown
    subst unknown
    rfl
  · rw [if_neg unknown]
    by_cases short : answer.length ≤ 32
    · have length : 32 - answer.length + answer.length = 32 := by omega
      rw [if_neg (not_lt.2 short), dif_pos short, sub_eq short, done_bind,
        copy_eq _ length (by decide), Word.zero, FixedBytes.splice_zero_back length]
      rfl
    · rw [if_pos (not_le.1 short), dif_neg short]
      rfl

lemma blockNumber32_eq (answer : FixedBytes TxContext.size) :
    blockNumber32 answer = ofExcept (Machine.blockNumber32 answer) := by
  have run := decodeContext_reads answer.toList
  rw [Reads] at run
  rw [blockNumber32, Machine.blockNumber32, run, done_bind]
  cases TxContext.decode answer.toList <;> rfl

lemma replyFlag_eq (reply : Reply) : replyFlag reply = done (Machine.replyFlag reply) := by
  have run := decodeResult_reads reply.toList
  rw [Reads] at run
  rw [replyFlag, Machine.replyFlag, run, done_bind]
  cases Result.decode reply.toList <;> rfl

/-- No input has as many bytes as there are places. -/
lemma inputWord_eq {input : Bytes} (short : input.length < placeLimit) (offset : ℕ) :
    inputWord input offset = done (Machine.inputWord input offset) := by
  rw [inputWord, Machine.inputWord]
  split_ifs with inside
  · have last : offset + min (input.length - offset) 32 ≤ input.length := by omega
    have taken : (input.take (offset + min (input.length - offset) 32)).drop offset
        = (input.drop offset).take 32 := by
      rw [List.drop_take, Nat.add_sub_cancel_left, List.take_eq_take_iff, List.length_drop]
      omega
    have length : 0 + ((input.drop offset).take 32).length = min (input.length - offset) 32 := by
      rw [List.length_take, List.length_drop]
      omega
    rw [sub_eq inside.le, done_bind]
    dsimp only
    rw [add_eq (last.trans_lt short), done_bind, slice_eq (by omega) last, taken, done_bind,
      copy_eq _ length (by omega), Word.zero, FixedBytes.splice_zero_front]
  · have nothing : input.drop offset = [] := List.drop_eq_nil_of_le (not_lt.1 inside)
    refine congrArg done (FixedBytes.ext ?_)
    simp [FixedBytes.leftAligned, nothing, Word.zero, FixedBytes.zero]

/-- A push takes the bytes behind it, and zeros for those that are not there. -/
lemma operand_eq {code : Bytes} (short : code.length < 2 ^ 63) {place width : ℕ}
    (inside : place < code.length) (narrow : width ≤ 32) :
    operand code place width
      = done (Instruction.operand width narrow (code.drop (place + 1))) := by
  have room : place + 1 + width < placeLimit := by
    have limit : 2 ^ 63 + 33 < placeLimit := by decide
    omega
  set last := min (place + 1 + width) code.length with last_eq
  have first : min (place + 1) code.length = place + 1 := by omega
  have taken : (code.take last).drop (place + 1) = (code.drop (place + 1)).take width := by
    rw [List.drop_take, List.take_eq_take_iff, List.length_drop]
    omega
  have count : ((code.drop (place + 1)).take width).length = last - (place + 1) := by
    rw [List.length_take, List.length_drop]
    omega
  have fits : 32 - width + (last - (place + 1)) ≤ 32 := by omega
  rw [operand, add_eq (by omega), done_bind, add_eq room, done_bind]
  dsimp only
  rw [← last_eq, first, sub_eq narrow, done_bind, sub_eq (by omega), done_bind,
    add_eq (fits.trans_lt (by decide)), done_bind, slice_eq (by omega) (by omega), taken, done_bind,
    copy_eq _ (by rw [count]) fits]
  have behind : 32 - (32 - width + ((code.drop (place + 1)).take width).length)
      = width - ((code.drop (place + 1)).take width).length := by
    omega
  refine congrArg done (FixedBytes.ext ?_)
  rw [Word.zero, FixedBytes.toList_splice_zero, behind, Instruction.take_padded]
  simp only [Instruction.operand, FixedBytes.rightAligned, Instruction.length_operand]

lemma instructionOf_eq (opcode : UInt8) :
    instructionOf opcode = done (Instruction.ofOpcode opcode) := by
  rw [instructionOf]
  split_ifs with log
  · have lower : 0xa0 ≤ opcode.toNat := log.1
    have upper : opcode.toNat ≤ 0xa4 := log.2
    rw [sub_eq lower, done_bind]
    obtain zero | one | two | three | four : opcode.toNat = 0xa0 ∨ opcode.toNat = 0xa1 ∨
        opcode.toNat = 0xa2 ∨ opcode.toNat = 0xa3 ∨ opcode.toNat = 0xa4 := by
      omega
    · rw [Instruction.ofOpcode, zero]
      rfl
    · rw [Instruction.ofOpcode, one]
      rfl
    · rw [Instruction.ofOpcode, two]
      rfl
    · rw [Instruction.ofOpcode, three]
      rfl
    · rw [Instruction.ofOpcode, four]
      rfl
  · rfl

end Guarded

end ContractHost.Machine
