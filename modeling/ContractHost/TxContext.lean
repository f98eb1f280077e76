import ContractHost.Address
import ContractHost.Wire

/-!
# Transaction and block data

What a contract may ask about the transaction and the block it runs in.  It is fixed for a whole
execution and never part of the changes.  Engines read it as 160 bytes: gas price, origin,
coinbase, block number, timestamp, gas limit, difficulty and chain id, without any padding.
-/

namespace ContractHost

/-- The transaction and the block around an execution. -/
structure TxContext where
  gasPrice : Word := Word.zero
  origin : Address := Address.zero
  coinbase : Address := Address.zero
  blockNumber : Int64 := 0
  timestamp : Int64 := 0
  gasLimit : Int64 := 0
  difficulty : Word := Word.zero
  chainId : Word := Word.zero
deriving DecidableEq

namespace TxContext

def size : Nat := 160

/-- The data as engines read it. -/
def encode (context : TxContext) : FixedBytes size :=
  ⟨((Cursor.blank size)
    |>.write (.bytes 32) context.gasPrice
    |>.write (.bytes 20) context.origin
    |>.write (.bytes 20) context.coinbase
    |>.write .int64 context.blockNumber
    |>.write .int64 context.timestamp
    |>.write .int64 context.gasLimit
    |>.write (.bytes 32) context.difficulty
    |>.write (.bytes 32) context.chainId).buffer, by simp⟩

def decode (buffer : Bytes) : Except Fault TxContext :=
  if buffer.length < size then .error (.malformed "tx context" size buffer.length)
  else do
    let (gasPrice, rest) ← (Cursor.start buffer).read (.bytes 32)
    let (origin, rest) ← rest.read (.bytes 20)
    let (coinbase, rest) ← rest.read (.bytes 20)
    let (blockNumber, rest) ← rest.read .int64
    let (timestamp, rest) ← rest.read .int64
    let (gasLimit, rest) ← rest.read .int64
    let (difficulty, rest) ← rest.read (.bytes 32)
    let (chainId, _) ← rest.read (.bytes 32)
    return {
      gasPrice, origin, coinbase, blockNumber, timestamp, gasLimit, difficulty, chainId }

end TxContext

end ContractHost
