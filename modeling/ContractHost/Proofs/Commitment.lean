import ContractHost.Proofs.Extension

/-!
# The commitment to the storage

The storage root of an account is one hash over its slots in the order of their keys.  A slot that
was set to zero is not listed, and this is what makes the root canonical: two accounts whose slots
read alike list the same slots, however they came by them, so the same bytes are hashed.

Conversely these bytes give every slot away.  They are cut into records of 64 bytes, a key and a
value each, so different tables of slots are never written as the same bytes.  The hash may be any
function at all: where different slots have the same root, there are two byte strings with one hash,
or one whose hash is the root that stands for no slots at all.

* `Store.Edit`, `Store.ofEdits` — the stores that can be built from nothing.
* `Store.Sparse` — no slot is listed with zero; `Store.ofEdits_sparse`, so it is in every store that
  was built.
* `Account.storageImage_injective` — the bytes that are hashed give away the slots.
* **`Store.commitment_canonical`** — both directions, for any two accounts of any two stores.
-/

namespace ContractHost

/-! ## Histories -/

namespace Store

/-- What is done to a store between executions. -/
inductive Edit where
  | setSlot (address : Address) (key value : Word)
  | setBalance (address : Address) (balance : Balance)
  | deploy (address : Address) (code : Bytes)
  | create (address : Address)

def Edit.apply : Edit → Store → Store
  | setSlot address key value, store => store.setSlot address key value
  | setBalance address balance, store => store.setBalance address balance
  | deploy address code, store => store.deploy address code
  | create address, store => (store.create address).2

/-- The store that is built from nothing by some edits, the first one first. -/
def ofEdits (edits : List Edit) : Store :=
  edits.foldl (fun store edit => edit.apply store) empty

end Store

/-! ## No slot is listed with zero -/

/-- No slot of the account is listed with zero. -/
def Account.Sparse (account : Account) : Prop :=
  ∀ key : Word, account.storage[key]? ≠ some Word.zero

lemma Account.sparse_empty : Account.Sparse {} := by
  intro key
  simp

/-- Setting a slot keeps an account sparse, since a zero is erased. -/
lemma Account.Sparse.setSlot {account : Account} (sparse : account.Sparse) (key value : Word) :
    Account.Sparse { account with
      storage := if value.isZero then account.storage.erase key
        else account.storage.insert key value } := by
  intro key'
  dsimp only
  split_ifs with zero
  · rw [Std.ExtTreeMap.getElem?_erase]
    split_ifs
    · simp
    · exact sparse key'
  · rw [Std.ExtTreeMap.getElem?_insert]
    split_ifs
    · rintro ⟨⟩
      exact zero rfl
    · exact sparse key'

namespace Store

/-- No slot of any account is listed with zero. -/
def Sparse (store : Store) : Prop :=
  ∀ address account, store.get? address = some account → account.Sparse

lemma sparse_empty : Sparse empty := by
  intro address account found
  simp [empty, get?] at found

lemma Sparse.insert {store : Store} (sparse : store.Sparse) {account : Account}
    (new : account.Sparse) (changed : Address) : (store.insert changed account).Sparse := by
  intro address other found
  rw [get?_insert] at found
  split_ifs at found
  · obtain rfl := Option.some.inj found
    exact new
  · exact sparse address other found

/-- A change that keeps accounts sparse keeps the store sparse. -/
lemma Sparse.modify {store : Store} (sparse : store.Sparse) {change : Account → Account}
    (keeps : ∀ account : Account, account.Sparse → (change account).Sparse) (changed : Address) :
    (store.modify changed change).Sparse := by
  refine sparse.insert (keeps _ ?_) changed
  cases found : store.get? changed with
  | none => exact Account.sparse_empty
  | some account => exact sparse changed account found

lemma Sparse.create {store : Store} (sparse : store.Sparse) (created : Address) :
    (store.create created).2.Sparse := by
  rw [Store.create]
  split_ifs
  · exact sparse
  · exact sparse.insert Account.sparse_empty created

lemma Sparse.apply {store : Store} (sparse : store.Sparse) (edit : Edit) :
    (edit.apply store).Sparse := by
  cases edit with
  | setSlot address key value => exact sparse.modify (fun _ kept => kept.setSlot key value) address
  | setBalance address balance =>
      refine sparse.modify ?_ address
      exact fun _ kept => kept
  | deploy address code =>
      refine sparse.modify ?_ address
      exact fun _ kept => kept
  | create address => exact sparse.create address

lemma Sparse.foldl {store : Store} (sparse : store.Sparse) (edits : List Edit) :
    (edits.foldl (fun store edit => edit.apply store) store).Sparse := by
  induction edits generalizing store with
  | nil => exact sparse
  | cons edit edits ih => exact ih (sparse.apply edit)

/-- Every store that was built is sparse. -/
lemma ofEdits_sparse (edits : List Edit) : (ofEdits edits).Sparse := sparse_empty.foldl edits

end Store

/-! ## What is hashed -/

namespace Account

/-- The bytes of slots in some order. -/
def records (slots : List (Word × Word)) : Bytes :=
  slots.flatMap fun slot => slot.1.toList ++ slot.2.toList

lemma length_records (slots : List (Word × Word)) : (records slots).length = 64 * slots.length := by
  induction slots with
  | nil => rfl
  | cons slot slots ih =>
      rw [records, List.flatMap_cons, ← records, List.length_append, ih, List.length_append,
        FixedBytes.length_toList, FixedBytes.length_toList, List.length_cons]
      ring

/-- Every record is as wide as every other, so it is known where one ends and the next one starts. -/
lemma records_injective : Function.Injective records := by
  intro slots others same
  have length : slots.length = others.length := by
    have bytes := congrArg List.length same
    rw [length_records, length_records] at bytes
    omega
  induction slots generalizing others with
  | nil => exact (List.eq_nil_of_length_eq_zero length.symm).symm
  | cons slot slots ih =>
      obtain ⟨other, others, rfl⟩ := List.exists_cons_of_length_eq_add_one length.symm
      simp only [records, List.flatMap_cons, List.append_assoc] at same
      obtain ⟨key, same⟩ := List.append_inj same (by simp)
      obtain ⟨value, same⟩ := List.append_inj same (by simp)
      rw [Prod.ext (FixedBytes.ext key) (FixedBytes.ext value), ih same (Nat.succ.inj length)]

/-- The bytes that are hashed give away the slots. -/
lemma storageImage_injective : Function.Injective storageImage := by
  intro storage storage' same
  exact Std.ExtTreeMap.toList_inj.1 (records_injective same)

/-- Only no slots at all stand for no bytes. -/
lemma storageImage_eq_nil_iff {storage : Slots} : storageImage storage = [] ↔ storage = ∅ :=
  storageImage_injective.eq_iff' rfl

/-- The root is the hash of these bytes, if there are any. -/
lemma storageRoot_eq (account : Account) (hash : Bytes → Word) :
    account.storageRoot hash
      = if storageImage account.storage = [] then emptyStorageRoot
        else hash (storageImage account.storage) := by
  simp only [storageRoot, storageImage_eq_nil_iff, Std.ExtTreeMap.isEmpty_iff]

variable {account other : Account}

/-- What is read of a slot tells whether it is listed. -/
lemma Sparse.getElem?_eq (sparse : account.Sparse) (key : Word) :
    account.storage[key]?
      = if account.storage.getD key Word.zero = Word.zero then none
        else some (account.storage.getD key Word.zero) := by
  rw [Std.ExtTreeMap.getD_eq_getD_getElem?]
  cases found : account.storage[key]? with
  | none => simp
  | some value =>
      have nonzero : value ≠ Word.zero := fun zero => sparse key (by rw [found, zero])
      simp [nonzero]

/-- Accounts whose slots read alike list the same slots. -/
lemma Sparse.storage_eq (sparse : account.Sparse) (sparse' : other.Sparse)
    (alike : ∀ key, account.storage.getD key Word.zero = other.storage.getD key Word.zero) :
    account.storage = other.storage := by
  refine Std.ExtTreeMap.ext_getElem? fun key => ?_
  rw [sparse.getElem?_eq, sparse'.getElem?_eq, alike key]

/-- The commitment depends on the slots only. -/
lemma storageRoot_congr (hash : Bytes → Word) (same : account.storage = other.storage) :
    account.storageRoot hash = other.storageRoot hash := by
  rw [storageRoot, storageRoot, same]

/-- Accounts with different slots have the same root only through the hash: two byte strings have
one hash, or one has the hash that stands for no slots. -/
lemma collision_of_storageRoot {hash : Bytes → Word}
    (differ : storageImage account.storage ≠ storageImage other.storage)
    (same : account.storageRoot hash = other.storageRoot hash) :
    hash (storageImage account.storage) = hash (storageImage other.storage) ∨
      storageImage account.storage = [] ∧ hash (storageImage other.storage) = emptyStorageRoot ∨
      storageImage other.storage = [] ∧ hash (storageImage account.storage) = emptyStorageRoot := by
  rw [storageRoot_eq, storageRoot_eq] at same
  split_ifs at same with empty both empty'
  · exact absurd (empty.trans both.symm) differ
  · exact .inr (.inl ⟨empty, same.symm⟩)
  · exact .inr (.inr ⟨empty', same⟩)
  · exact .inl same

end Account

/-! ## Reads and roots -/

lemma Store.slot_of_known {store : Store} {address : Address} {account : Account}
    (found : store.get? address = some account) (key : Word) :
    store.slot address key = account.storage.getD key Word.zero := by
  rw [Store.slot, found]

/-- **The storage root is canonical,** whatever the hash function is.  Take any account of any store
that was built, and any account of any other.  Its root is the hash of the bytes of its slots, where
no bytes have a root of their own.  If all slots of both read alike, they have the same storage
root.  If some slot reads differently, they have different bytes.  The roots can then only be the
same if these different bytes have one hash, or if one account has no slots and the bytes of the
other have the hash that stands for this. -/
theorem Store.commitment_canonical (hash : Bytes → Word) (edits edits' : List Edit)
    (address address' : Address) (account account' : Account)
    (found : (ofEdits edits).get? address = some account)
    (found' : (ofEdits edits').get? address' = some account') :
    account.storageRoot hash
      = (if Account.storageImage account.storage = [] then Account.emptyStorageRoot
        else hash (Account.storageImage account.storage)) ∧
    ((∀ key, (ofEdits edits).slot address key = (ofEdits edits').slot address' key) →
      account.storageRoot hash = account'.storageRoot hash) ∧
    ∀ key, (ofEdits edits).slot address key ≠ (ofEdits edits').slot address' key →
      Account.storageImage account.storage ≠ Account.storageImage account'.storage ∧
      (account.storageRoot hash = account'.storageRoot hash →
        hash (Account.storageImage account.storage) = hash (Account.storageImage account'.storage) ∨
        Account.storageImage account.storage = [] ∧
          hash (Account.storageImage account'.storage) = Account.emptyStorageRoot ∨
        Account.storageImage account'.storage = [] ∧
          hash (Account.storageImage account.storage) = Account.emptyStorageRoot) := by
  simp only [slot_of_known found, slot_of_known found']
  refine ⟨account.storageRoot_eq hash, ?_, ?_⟩
  · intro alike
    have same : account.storage = account'.storage :=
      (ofEdits_sparse edits address account found).storage_eq
        (ofEdits_sparse edits' address' account' found') alike
    exact Account.storageRoot_congr hash same
  · intro key differ
    have images : Account.storageImage account.storage ≠ Account.storageImage account'.storage :=
      fun same => differ (by rw [Account.storageImage_injective same])
    exact ⟨images, Account.collision_of_storageRoot images⟩

/-- Two slots are set, one of them twice, and the other one is cleared. -/
def detour : List Store.Edit :=
  [.create Address.zero, .setSlot Address.zero (Word.ofNat 2) (Word.ofNat 7),
    .setSlot Address.zero (Word.ofNat 1) (Word.ofNat 8),
    .setSlot Address.zero (Word.ofNat 1) (Word.ofNat 9),
    .setSlot Address.zero (Word.ofNat 2) Word.zero]

/-- One slot is set, of an account that has code as well. -/
def shortcut : List Store.Edit :=
  [.deploy Address.zero [0x00], .setSlot Address.zero (Word.ofNat 1) (Word.ofNat 9)]

/-- Both ways lead to the same root.  Before the last step of the first one other bytes would have
been hashed, so that the same root would have been a collision. -/
theorem detour_commitment : ∃ account account' unfinished,
    (Store.ofEdits detour).get? Address.zero = some account ∧
    (Store.ofEdits shortcut).get? Address.zero = some account' ∧
    (Store.ofEdits (detour.take 4)).get? Address.zero = some unfinished ∧
    account ≠ account' ∧ account.storageRoot = account'.storageRoot ∧
    Account.storageImage unfinished.storage ≠ Account.storageImage account'.storage ∧
    (unfinished.storageRoot = account'.storageRoot →
      Keccak.hash (Account.storageImage unfinished.storage)
        = Keccak.hash (Account.storageImage account'.storage)) := by
  have found : (Store.ofEdits detour).get? Address.zero
      = some { storage := (∅ : Slots).insert (Word.ofNat 1) (Word.ofNat 9) } := by
    decide +kernel
  have found' : (Store.ofEdits shortcut).get? Address.zero
      = some { code := [0x00], storage := (∅ : Slots).insert (Word.ofNat 1) (Word.ofNat 9) } := by
    decide +kernel
  obtain ⟨unfinished, begun, slots⟩ : ∃ account,
      (Store.ofEdits (detour.take 4)).get? Address.zero = some account ∧
        Account.storageImage account.storage ≠ [] := by
    exact ⟨_, rfl, by decide +kernel⟩
  have canonical := Store.commitment_canonical Keccak.hash detour shortcut _ _ _ _ found found'
  obtain ⟨images, collision⟩ := (Store.commitment_canonical Keccak.hash (detour.take 4) shortcut
    _ _ _ _ begun found').2.2 (Word.ofNat 2) (by decide +kernel)
  refine ⟨_, _, _, found, found', begun, by decide, canonical.2.1 fun key => ?_, images,
    fun same => ?_⟩
  · rw [Store.slot_of_known found, Store.slot_of_known found']
  · obtain both | ⟨blank, -⟩ | ⟨blank, -⟩ := collision same
    · exact both
    · exact absurd blank slots
    · exact absurd blank (by decide +kernel)

end ContractHost
