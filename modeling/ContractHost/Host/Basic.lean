import ContractHost.Engine.Query
import ContractHost.Frame
import ContractHost.Host.Settings

/-!
# Hosts and their answers

A host owns the base store, the data of transaction and block, the hashes of earlier blocks, and
the stack of frames of the running calls.  It answers the questions of an engine on behalf of the
frame on top: reading sees everything that the frames of the stack have changed, and writing goes
into the diff of the top frame alone.

* `Host.answer` answers any question, by one function for each that changes something.
* `Host.keepFault` keeps the first fault of an execution, to be reported at its end.

Questions asked when no call is running are answered too; what they would have recorded is lost.
-/

namespace ContractHost

/-- The host side of the boundary. -/
structure Host where
  /-- The accounts as they stood before the execution. -/
  store : Store
  txContext : TxContext := {}
  settings : Settings := {}
  /-- The hashes of earlier blocks, by number. -/
  blockHashes : Std.ExtTreeMap Int64 Word := ∅
  stack : CallStack := {}
  fault : Option Fault := none
deriving DecidableEq

namespace Host

/-- The host that also knows the hash of a block. -/
def withBlockHash (host : Host) (number : Int64) (hash : Word) : Host :=
  { host with blockHashes := host.blockHashes.insert number hash }

/-- Keeps a fault, unless there was one before. -/
def keepFault (host : Host) (fault : Fault) : Host :=
  { host with fault := some (host.fault.getD fault) }

/-- Changes the frame on top, if a call is running. -/
def modifyCurrent (host : Host) (change : Frame → Frame) : Host :=
  { host with stack := host.stack.modifyCurrent change }

/-- Changes the diff of the frame on top, if a call is running. -/
def modifyDiff (host : Host) (change : FrameDiff → FrameDiff) : Host :=
  host.modifyCurrent fun frame => frame.modifyDiff change

/-- Lends bytes to the engine of the frame on top, if a call is running. -/
def lend (host : Host) (bytes : Bytes) : Host :=
  host.modifyCurrent fun frame => frame.lend bytes

/-! ## Accounts -/

/-- The account is in the store, or a frame touched it. -/
def accountExists (host : Host) (address : Address) : Bool :=
  host.store.contains address || host.stack.touches address

/-- The balance that the frame on top sees: that of the store with all pending changes.  It is
computed as a signed number of 128 bits that saturates, and is never negative.  An account that is
neither known nor touched has none. -/
def visibleBalance (host : Host) (address : Address) : Option Nat :=
  let base := host.store.balance? address
  if base.isNone && !host.stack.touches address then none
  else
    let start := Delta.ofInt (base.getD 0).toNat
    some (start.add (host.stack.balanceDelta address)).val.toNat

/-- Answers with the balance and lends the bytes of the answer.  No bytes are lent, and none
answered, if the account is unknown or no call is running. -/
def balance (host : Host) (address : Address) : Bytes × Host :=
  match host.visibleBalance address, host.stack.current? with
  | some amount, some _ =>
    let bytes := (Word.ofNat amount).toList
    (bytes, host.lend bytes)
  | _, _ => ([], host)

/-- The hash of the code in the store, or zero if the account is unknown. -/
def codeHash (host : Host) (address : Address) : Word :=
  match host.store.get? address with
  | some account => account.codeHash
  | none => Word.zero

/-! ## Accesses -/

/-- Warm if the condition holds. -/
def accessStatus (wasWarm : Bool) : AccessStatus := if wasWarm then .warm else .cold

def accessAccount (host : Host) (address : Address) : AccessStatus × Host :=
  (accessStatus (host.stack.isWarmAccount address), host.modifyDiff (·.warmAccount address))

def accessSlot (host : Host) (address : Address) (key : Word) : AccessStatus × Host :=
  (accessStatus (host.stack.isWarmSlot address key), host.modifyDiff (·.warmSlot address key))

/-! ## Storage -/

def slot (host : Host) (address : Address) (key : Word) : Word :=
  host.stack.slot host.store address key

/-- What the frame did to a slot by writing it, given what the slot held, whether its account was
unknown before, and whether the frame had written the slot already. -/
def writeStatus (old new : Word) (accountIsNew writtenBefore : Bool) : StorageStatus :=
  if new.isZero then .deleted
  else if new = old then .unchanged
  else if accountIsNew || old.isZero then .added
  else if writtenBefore then .modifiedAgain
  else .modified

/-- Writes a slot in the diff of the frame on top. -/
def setSlot (host : Host) (address : Address) (key value : Word) : StorageStatus × Host :=
  match host.stack.current? with
  | none => (.unchanged, host)
  | some frame =>
    let touchedHere := frame.diff.storage.contains address
    let accountIsNew :=
      !touchedHere && !host.store.contains address && !host.stack.touchesBelow address
    let writtenBefore :=
      match frame.diff.storage[address]? with
      | some account => account.written.contains key
      | none => false
    (writeStatus (host.slot address key) value accountIsNew writtenBefore,
      host.modifyDiff (·.writeSlot address key value))

/-! ## Destruction -/

/-- Registers an account for destruction.  The first registration that the frame can see moves the
balance which the store has for the account to the beneficiary, for whom the store gets an empty
account if it has none.  A later one only changes the beneficiary. -/
def destroy (host : Host) (address beneficiary : Address) : Bool × Host :=
  let first := !host.stack.isDestroyed address
  let host := if first then { host with store := (host.store.create beneficiary).2 } else host
  match host.stack.current? with
  | none => (false, host)
  | some _ =>
    let amount := Delta.ofInt ((host.store.balance? address).getD 0).toNat
    let host := host.modifyDiff (·.destroy address beneficiary)
    let host :=
      if first then
        host.modifyDiff fun diff => (diff.credit beneficiary amount).credit address amount.neg
      else host
    (first, host)

/-! ## Logs -/

/-- Leaves a log entry.  One with too many topics is refused, and a fault of the execution. -/
def log (host : Host) (address : Address) (data : Bytes) (topics : List Word) :
    Except Fault Unit × Host :=
  match LogEntry.make address data topics with
  | .ok entry => (.ok (), host.modifyDiff (·.log entry))
  | .error fault => (.error fault, host.keepFault fault)

/-! ## All questions -/

/-- Answers a question on behalf of the frame on top. -/
def answer (host : Host) : (query : Query) → query.Answer × Host
  | .accountExists address => (host.accountExists address, host)
  | .accessAccount address => host.accessAccount address
  | .accessSlot address key => host.accessSlot address key
  | .slot address key => (host.slot address key, host)
  | .setSlot address key value => host.setSlot address key value
  | .balance address => host.balance address
  | .codeSize address => ((host.store.code address).length, host)
  | .codeHash address => (host.codeHash address, host)
  | .code address => (host.store.code address, host.lend (host.store.code address))
  | .destroy address beneficiary => host.destroy address beneficiary
  | .txContext => (host.txContext.encode, host)
  | .blockHash number => (host.blockHashes.getD number Word.zero, host)
  | .log address data topics => host.log address data topics

end Host

end ContractHost
