import ContractHost.Store.Account

/-!
# The base store

The store holds the accounts as they stood before an execution.  An execution reads it and keeps
its changes apart; the one thing it adds to the store itself is an empty account for the
beneficiary of a destruction, by `Store.create`.

Reading never fails: an unknown account has no code and zero in every slot.  Each of the setting
operations makes an unknown account first (`Store.modify`).
-/

namespace ContractHost

/-- The accounts, in ascending order of their addresses. -/
structure Store where
  accounts : Std.ExtTreeMap Address Account := ∅
deriving DecidableEq

namespace Store

def empty : Store := {}

/-! ## Reading -/

def get? (store : Store) (address : Address) : Option Account := store.accounts[address]?

def contains (store : Store) (address : Address) : Bool := store.accounts.contains address

/-- What is reported about the account at an address. -/
def summary? (store : Store) (address : Address) : Option AccountSummary :=
  (store.get? address).map fun account => account.summary

/-- The balance of the account at an address, if it is known. -/
def balance? (store : Store) (address : Address) : Option Balance :=
  (store.get? address).map Account.balance

def code (store : Store) (address : Address) : Bytes :=
  match store.get? address with
  | some account => account.code
  | none => []

def slot (store : Store) (address : Address) (key : Word) : Word :=
  match store.get? address with
  | some account => account.storage.getD key Word.zero
  | none => Word.zero

/-! ## Writing -/

/-- Puts an account at an address, in place of any that was there. -/
def insert (store : Store) (address : Address) (account : Account) : Store :=
  ⟨store.accounts.insert address account⟩

/-- Changes the account at an address; an unknown one starts out empty. -/
def modify (store : Store) (address : Address) (change : Account → Account) : Store :=
  store.insert address (change ((store.get? address).getD {}))

def deploy (store : Store) (address : Address) (code : Bytes) : Store :=
  store.modify address fun account => { account with code }

def setBalance (store : Store) (address : Address) (balance : Balance) : Store :=
  store.modify address fun account => { account with balance }

/-- Sets a slot of the account.  A slot set to zero is no longer listed. -/
def setSlot (store : Store) (address : Address) (key value : Word) : Store :=
  store.modify address fun account =>
    { account with
      storage := if value.isZero then account.storage.erase key
        else account.storage.insert key value }

/-- Makes an empty account at an address that has none; says whether there was none. -/
def create (store : Store) (address : Address) : Bool × Store :=
  if store.contains address then (false, store) else (true, store.insert address {})

/-! ## Report -/

def accountLines (address : Address) (account : Account) : List String :=
  ["  Address: 0x" ++ address.toHex,
    "      - Balance: " ++ toString account.balance.toNat,
    "      - Nonce: " ++ toString account.nonce,
    "      - Code size: " ++ toString account.code.length ++ " bytes",
    "      - Storage:"] ++
  account.storage.toList.map fun slot => "          " ++ slot.1.toHex ++ " = " ++ slot.2.toHex

/-- The store as reports show it: every account with its slots, in ascending order. -/
instance : ToString Store where
  toString store :=
    "\n".intercalate
      (["--- State Dump ---"] ++
        store.accounts.toList.flatMap (fun entry => accountLines entry.1 entry.2) ++
        ["--------------------"])

end Store

end ContractHost
