import ContractHost.Address
import ContractHost.Wire

/-!
# Call messages

A call message asks for the run of a contract.  On the way between host and engine it is a header
of 140 bytes, and the input of the call lies somewhere in the same buffer; the header says where.

| offset | width | field        |
|--------|-------|--------------|
| 0      | 4     | kind         |
| 4      | 4     | flags        |
| 8      | 4     | depth        |
| 12     | 4     | zero padding |
| 16     | 8     | gas          |
| 24     | 20    | destination  |
| 44     | 20    | sender       |
| 64     | 8     | input offset |
| 72     | 4     | input size   |
| 76     | 32    | value        |
| 108    | 32    | salt         |

* `CallMessage.encode` and `CallMessage.decode` translate the header.
* `CallMessage.pack` puts the input right behind the header; `CallMessage.unpack` finds it
  wherever the header says it is, and never looks outside the buffer.
-/

namespace ContractHost

/-- A request to run a contract. -/
structure CallMessage where
  /-- Whether and how the call creates an account. -/
  kind : CallKind
  /-- A set of bits; the lowest one forbids changes. -/
  flags : UInt32
  /-- How many calls this one is nested in. -/
  depth : UInt32
  gas : Int64
  destination : Address
  sender : Address
  /-- Where the input starts in the buffer of the message. -/
  inputOffset : UInt64
  inputSize : UInt32
  /-- The amount sent along, as a number of 256 bits. -/
  value : Word
  /-- What makes the address of a created account differ from others. -/
  salt : Word
deriving DecidableEq

/-- One level deeper; at the largest depth there is nothing deeper. -/
def deeper (depth : UInt32) : UInt32 := if depth.toNat + 1 < UInt32.size then depth + 1 else depth

namespace CallMessage

def size : Nat := 140

/-- The flag that forbids the call to change anything. -/
def staticFlag : UInt32 := 1

/-- A plain call at the root: no flags, no value and no input. -/
def plain (sender destination : Address) (gas : Int64) : CallMessage where
  kind := .call
  flags := 0
  depth := 0
  gas := gas
  destination := destination
  sender := sender
  inputOffset := 0
  inputSize := 0
  value := Word.zero
  salt := Word.zero

/-- The call may not change anything. -/
def isStatic (message : CallMessage) : Bool := message.flags &&& staticFlag != 0

def withDepth (message : CallMessage) (depth : UInt32) : CallMessage := { message with depth }

/-! ## The header -/

def encode (message : CallMessage) : FixedBytes size :=
  ⟨((Cursor.blank size)
    |>.write .int32 message.kind.number
    |>.write .uint32 message.flags
    |>.write .uint32 message.depth
    |>.pad 4
    |>.write .int64 message.gas
    |>.write (.bytes 20) message.destination
    |>.write (.bytes 20) message.sender
    |>.write .uint64 message.inputOffset
    |>.write .uint32 message.inputSize
    |>.write (.bytes 32) message.value
    |>.write (.bytes 32) message.salt).buffer, by simp⟩

/-- The message whose header starts the buffer. -/
def decode (buffer : Bytes) : Except Fault CallMessage :=
  if buffer.length < size then .error (.malformed "call message" size buffer.length)
  else do
    let (number, rest) ← (Cursor.start buffer).read .int32
    let kind ← CallKind.ofNumber number
    let (flags, rest) ← rest.read .uint32
    let (depth, rest) ← rest.read .uint32
    let (gas, rest) ← (rest.skip 4).read .int64
    let (destination, rest) ← rest.read (.bytes 20)
    let (sender, rest) ← rest.read (.bytes 20)
    let (inputOffset, rest) ← rest.read .uint64
    let (inputSize, rest) ← rest.read .uint32
    let (value, rest) ← rest.read (.bytes 32)
    let (salt, _) ← rest.read (.bytes 32)
    return { kind, flags, depth, gas, destination, sender, inputOffset, inputSize, value, salt }

/-! ## Messages with their input -/

/-- The message as it travels with an input of this size behind the header. -/
def withInput (message : CallMessage) (inputSize : Nat) : CallMessage :=
  { message with inputOffset := UInt64.ofNat size, inputSize := UInt32.ofNat inputSize }

/-- The header with the input right behind it.  The size of the input has 32 bits. -/
def pack (message : CallMessage) (input : Bytes) : Except Fault Bytes :=
  if input.length < UInt32.size then .ok ((message.withInput input.length).encode.toList ++ input)
  else .error (.violation (.inputTooLong input.length))

/-- The largest length that a buffer can have. -/
def lengthLimit : Nat := UInt64.size - 1

/-- The message and its input.  An empty input may be said to lie anywhere; any other has to lie in
the buffer, which may include the header itself. -/
def unpack (buffer : Bytes) : Except Fault (CallMessage × Bytes) := do
  let message ← decode buffer
  let first := message.inputOffset.toNat
  let count := message.inputSize.toNat
  if count = 0 then return (message, [])
  else if lengthLimit < first + count then
    throw (.malformed "message input" lengthLimit buffer.length)
  else if buffer.length < first + count then
    throw (.malformed "message input" (first + count) buffer.length)
  else return (message, (buffer.drop first).take count)

end CallMessage

end ContractHost
