import ContractHost.LogEntry
import ContractHost.TxContext

/-!
# What an engine may ask its host

A running engine sees the world only through questions to its host.  `Query` lists them, and
`Query.Answer` says what each is answered with; some of them change the pending state, and the
answer then says what changed.  Nested calls are not queries: they run an engine themselves and
are a step of their own in `Program`.
-/

namespace ContractHost

/-- Whether an account or slot was accessed before. -/
inductive AccessStatus where
  | cold
  | warm
deriving DecidableEq

/-- What a storage write did to its slot. -/
inductive StorageStatus where
  /-- The slot had this value already. -/
  | unchanged
  /-- The slot had another value, which the frame had not written. -/
  | modified
  /-- The slot had another value, which the frame had written before. -/
  | modifiedAgain
  /-- The slot was zero. -/
  | added
  /-- The slot is zero now. -/
  | deleted
deriving DecidableEq

/-- The number by which an access status travels. -/
def AccessStatus.number : AccessStatus → Int32
  | cold => 0
  | warm => 1

/-- The number by which a storage status travels. -/
def StorageStatus.number : StorageStatus → Int32
  | unchanged => 0
  | modified => 1
  | modifiedAgain => 2
  | added => 3
  | deleted => 4

/-- A question of an engine to its host. -/
inductive Query where
  /-- Is the account known? -/
  | accountExists (address : Address)
  /-- Makes the account warm; was it warm? -/
  | accessAccount (address : Address)
  /-- Makes the slot warm; was it warm? -/
  | accessSlot (address : Address) (key : Word)
  | slot (address : Address) (key : Word)
  /-- Writes a slot; what did that do? -/
  | setSlot (address : Address) (key value : Word)
  /-- The balance as 32 bytes, or no bytes if the account is unknown. -/
  | balance (address : Address)
  | codeSize (address : Address)
  /-- The hash of the code, or zero if the account is unknown. -/
  | codeHash (address : Address)
  | code (address : Address)
  /-- Registers the account for destruction; was it not registered before? -/
  | destroy (address beneficiary : Address)
  | txContext
  | blockHash (number : Int64)
  | log (address : Address) (data : Bytes) (topics : List Word)
deriving DecidableEq

/-- What a question is answered with. -/
@[reducible] def Query.Answer : Query → Type
  | accountExists _ => Bool
  | accessAccount _ => AccessStatus
  | accessSlot _ _ => AccessStatus
  | slot _ _ => Word
  | setSlot _ _ _ => StorageStatus
  | balance _ => Bytes
  | codeSize _ => Nat
  | codeHash _ => Word
  | code _ => Bytes
  | destroy _ _ => Bool
  | txContext => FixedBytes TxContext.size
  | blockHash _ => Word
  | log _ _ _ => Except Fault Unit

end ContractHost
