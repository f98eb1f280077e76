import ContractHost.Diff.Delta
import ContractHost.Diff.Storage
import ContractHost.LogEntry

/-!
# Everything a frame changed

A frame never writes to the base store.  What it changes is kept in a `FrameDiff`: storage writes,
balance changes, destructions with their beneficiaries, logs, and which accounts and slots are
warm because they were accessed.  When the frame's call succeeds, its diff is merged into the diff
of the caller (`FrameDiff.merge`); otherwise it is dropped, and with it every trace of the call.

Merging is part by part: the newer diff wins per slot and per destroyed account, balance changes
add up, newer logs go behind the older ones, and the warm sets are united.
-/

namespace ContractHost

@[ext] structure SlotKey where
  address : Address
  key : Word
deriving DecidableEq

namespace SlotKey

/-- Slots are ordered by account, and within an account by key. -/
instance : Ord SlotKey where
  compare := compareLex (compareOn address) (compareOn key)

instance : Std.TransOrd SlotKey :=
  inferInstanceAs (Std.TransCmp (compareLex (compareOn address) (compareOn key)))

instance : Std.LawfulEqOrd SlotKey where
  eq_of_compare h :=
    have ⟨sameAddress, sameKey⟩ := Ordering.then_eq_eq.1 h
    SlotKey.ext (Std.LawfulEqCmp.eq_of_compare sameAddress)
      (Std.LawfulEqCmp.eq_of_compare sameKey)

end SlotKey

/-- Everything one frame changed. -/
structure FrameDiff where
  storage : Std.ExtTreeMap Address StorageDiff := ∅
  balances : Std.ExtTreeMap Address Delta := ∅
  /-- Destroyed accounts, each with the account that inherits from it. -/
  destroyed : Std.ExtTreeMap Address Address := ∅
  logs : List LogEntry := []
  warmAccounts : Std.ExtTreeSet Address := ∅
  warmSlots : Std.ExtTreeSet SlotKey := ∅
deriving DecidableEq

namespace FrameDiff

def empty : FrameDiff := {}

/-! ## Reading -/

/-- The value that the diff dictates for a slot, or `none` if it says nothing about it. -/
def slot? (diff : FrameDiff) (address : Address) (key : Word) : Option Word :=
  match diff.storage[address]? with
  | some account => account.lookup key
  | none => none

/-- The frame touched the account through its storage or its balance. -/
def touches (diff : FrameDiff) (address : Address) : Bool :=
  diff.storage.contains address || diff.balances.contains address

/-- The frame changed nothing.  Accesses are not changes. -/
def isEmpty (diff : FrameDiff) : Bool :=
  diff.storage.isEmpty && diff.balances.isEmpty && diff.destroyed.isEmpty && diff.logs.isEmpty

/-! ## Recording -/

/-- Changes the pending storage of an account, which starts out without writes. -/
def modifyStorage (diff : FrameDiff) (address : Address) (change : StorageDiff → StorageDiff) :
    FrameDiff :=
  { diff with storage := diff.storage.insert address (change (diff.storage.getD address {})) }

def writeSlot (diff : FrameDiff) (address : Address) (key value : Word) : FrameDiff :=
  diff.modifyStorage address fun account => account.write key value

def creditTo (balances : Std.ExtTreeMap Address Delta) (address : Address) (amount : Delta) :
    Std.ExtTreeMap Address Delta :=
  balances.insert address ((balances.getD address Delta.zero).add amount)

/-- Adds an amount to the balance change of an account. -/
def credit (diff : FrameDiff) (address : Address) (amount : Delta) : FrameDiff :=
  { diff with balances := creditTo diff.balances address amount }

/-- Registers an account for destruction.  A repeated registration only replaces the
beneficiary. -/
def destroy (diff : FrameDiff) (address beneficiary : Address) : FrameDiff :=
  { diff with destroyed := diff.destroyed.insert address beneficiary }

def log (diff : FrameDiff) (entry : LogEntry) : FrameDiff :=
  { diff with logs := diff.logs ++ [entry] }

def warmAccount (diff : FrameDiff) (address : Address) : FrameDiff :=
  { diff with warmAccounts := diff.warmAccounts.insert address }

def warmSlot (diff : FrameDiff) (address : Address) (key : Word) : FrameDiff :=
  { diff with warmSlots := diff.warmSlots.insert ⟨address, key⟩ }

/-! ## Merging -/

/-- Merges storage writes, account by account. -/
def mergeStorage (older newer : Std.ExtTreeMap Address StorageDiff) :
    Std.ExtTreeMap Address StorageDiff :=
  newer.toList.foldl
    (fun merged entry => merged.insert entry.1 ((merged.getD entry.1 {}).merge entry.2)) older

/-- Merges balance changes: they add up per account. -/
def mergeBalances (older newer : Std.ExtTreeMap Address Delta) : Std.ExtTreeMap Address Delta :=
  newer.toList.foldl (fun merged entry => creditTo merged entry.1 entry.2) older

/-- The diff after everything that a newer one changed. -/
def merge (diff newer : FrameDiff) : FrameDiff where
  storage := mergeStorage diff.storage newer.storage
  balances := mergeBalances diff.balances newer.balances
  destroyed := diff.destroyed ∪ newer.destroyed
  logs := diff.logs ++ newer.logs
  warmAccounts := diff.warmAccounts ∪ newer.warmAccounts
  warmSlots := diff.warmSlots ∪ newer.warmSlots

/-! ## Report -/

def slotLine (account : StorageDiff) (key : Word) : String :=
  match account.values[key]? with
  | some value => "    " ++ key.toHex ++ " = " ++ value.toHex
  | none => "    " ++ key.toHex ++ " deleted"

def lines (diff : FrameDiff) : List String :=
  ["Storage:"] ++
  diff.storage.toList.flatMap (fun entry =>
    ("  " ++ entry.1.toHex) :: entry.2.written.toList.map (slotLine entry.2)) ++
  ["Balances:"] ++
  diff.balances.toList.map (fun entry => "  " ++ entry.1.toHex ++ " " ++ toString entry.2) ++
  ["Destroyed:"] ++
  diff.destroyed.toList.map (fun entry => "  " ++ entry.1.toHex ++ " -> " ++ entry.2.toHex) ++
  ["Logs:"] ++
  diff.logs.zipIdx.map fun (entry, i) => "  [" ++ toString i ++ "] " ++ toString entry

/-- The diff as reports show it: each part in ascending order, each line ended. -/
instance : ToString FrameDiff where
  toString diff := String.join (diff.lines.map (· ++ "\n"))

end FrameDiff

end ContractHost
