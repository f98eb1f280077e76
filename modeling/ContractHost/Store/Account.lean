import ContractHost.Address
import ContractHost.Keccak
import Std.Data.ExtTreeMap

/-!
# Accounts

An account holds a nonce, a balance, code and storage.  Its storage holds the slots that are not
zero, in ascending order of their keys; two accounts with the same slots are the same whatever the
order in which the slots were written.

`Account.storageRoot` commits to the storage by one hash over all slots in order.  It is a flat
commitment and not the root of a tree: only an account without slots has the root that a tree
would give it.  The hash function is a parameter of both commitments of an account, to its code and
to its storage; the program runs with `Keccak.hash`.
-/

namespace ContractHost

/-- An amount of money, below 2 ^ 128. -/
abbrev Balance := BitVec 128

abbrev Slots := Std.ExtTreeMap Word Word

structure Account where
  /-- How many calls the account has made. -/
  nonce : UInt64 := 0
  /-- The money it owns. -/
  balance : Balance := 0
  /-- The code that calls to it run; empty for an account of a person. -/
  code : Bytes := []
  /-- Its slots; a slot that is not listed is zero. -/
  storage : Slots := ∅
deriving DecidableEq

namespace Account

/-- The hash of no code at all. -/
def emptyCodeHash : Word :=
  ⟨[0xc5, 0xd2, 0x46, 0x01, 0x86, 0xf7, 0x23, 0x3c, 0x92, 0x7e, 0x7d, 0xb2, 0xdc, 0xc7, 0x03, 0xc0,
    0xe5, 0x00, 0xb6, 0x53, 0xca, 0x82, 0x27, 0x3b, 0x7b, 0xfa, 0xd8, 0x04, 0x5d, 0x85, 0xa4, 0x70],
    rfl⟩

/-- The root of a tree without slots. -/
def emptyStorageRoot : Word :=
  ⟨[0x56, 0xe8, 0x1f, 0x17, 0x1b, 0xcc, 0x55, 0xa6, 0xff, 0x83, 0x45, 0xe6, 0x92, 0xc0, 0xf8, 0x6e,
    0x5b, 0x48, 0xe0, 0x1b, 0x99, 0x6c, 0xad, 0xc0, 0x01, 0x62, 0x2f, 0xb5, 0xe3, 0x63, 0xb4, 0x21],
    rfl⟩

def codeHash (account : Account) (hash : Bytes → Word := Keccak.hash) : Word :=
  if account.code.isEmpty then emptyCodeHash else hash account.code

/-- What the storage root is the hash of: the slots in ascending order, each with its key and its
value. -/
def storageImage (storage : Slots) : Bytes :=
  storage.toList.flatMap fun slot => slot.1.toList ++ slot.2.toList

/-- The commitment to the storage. -/
def storageRoot (account : Account) (hash : Bytes → Word := Keccak.hash) : Word :=
  if account.storage.isEmpty then emptyStorageRoot else hash (storageImage account.storage)

end Account

structure AccountSummary where
  balance : Balance
  nonce : UInt64
  codeHash : Word
  storageRoot : Word
deriving DecidableEq

def Account.summary (account : Account) (hash : Bytes → Word := Keccak.hash) : AccountSummary where
  balance := account.balance
  nonce := account.nonce
  codeHash := account.codeHash hash
  storageRoot := account.storageRoot hash

end ContractHost
