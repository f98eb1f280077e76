import ContractHost.Diff.Delta
import ContractHost.Proofs.Merge
import ContractHost.Store.Basic
import Mathlib.Algebra.BigOperators.Group.Finset.Basic
import Mathlib.Data.FinEnum
import Mathlib.Data.Fintype.Vector

/-!
# Totals

There are finitely many addresses, so amounts can be added up over all of them, and a table adds up
to the same whether one goes through its entries or through all addresses (`sum_entries`).  Nothing
is counted twice in a list without repetitions, so its share is at most the whole
(`sum_le_total`).

* `Store.funds` — the money that a store has for an account; `Store.total` — for all accounts.
* `FrameDiff.delta` — what a diff adds to the balance of an account; `FrameDiff.total` — to all
  balances together.
* `Delta.Exact` — adding two amounts does not saturate.
-/

namespace ContractHost

/-! ## All addresses -/

/-- A byte string of fixed width as a vector of the library. -/
def FixedBytes.toVector {n : ℕ} (bytes : FixedBytes n) : List.Vector UInt8 n :=
  ⟨bytes.toList, bytes.length_toList⟩

lemma FixedBytes.toVector_injective (n : ℕ) :
    Function.Injective (toVector : FixedBytes n → List.Vector UInt8 n) := by
  intro a b same
  exact FixedBytes.ext (congrArg Subtype.val same)

noncomputable instance (n : ℕ) : Fintype (FixedBytes n) :=
  Fintype.ofInjective FixedBytes.toVector (FixedBytes.toVector_injective n)

section Table

variable {κ β : Type} [Ord κ] [Std.TransOrd κ] [Std.LawfulEqOrd κ]

lemma nodup_keys (table : Std.ExtTreeMap κ β) : (table.toList.map Prod.fst).Nodup := by
  rw [List.Nodup, List.pairwise_map]
  exact distinct_toList table

variable [Fintype κ] [DecidableEq κ]

/-- The entries of a table add up to the same as all keys. -/
theorem sum_entries (table : Std.ExtTreeMap κ β) (amount : β → ℤ) :
    (table.toList.map fun entry => amount entry.2).sum
      = ∑ key : κ, (table[key]?.map amount).getD 0 := by
  have entries : (table.toList.map fun entry => amount entry.2)
      = (table.toList.map Prod.fst).map fun key => (table[key]?.map amount).getD 0 := by
    rw [List.map_map]
    refine List.map_congr_left ?_
    rintro ⟨key, value⟩ member
    rw [Std.ExtTreeMap.mem_toList_iff_getElem?_eq_some] at member
    simp [member]
  rw [entries, ← List.sum_toFinset _ (nodup_keys table)]
  refine Finset.sum_subset (Finset.subset_univ _) fun key _ unlisted => ?_
  cases found : table[key]? with
  | none => rfl
  | some value =>
      refine absurd ?_ unlisted
      rw [List.mem_toFinset, List.mem_map]
      exact ⟨(key, value), Std.ExtTreeMap.mem_toList_iff_getElem?_eq_some.2 found, rfl⟩

end Table

/-- The share of different keys is at most the total. -/
lemma sum_le_total {κ : Type} [Fintype κ] [DecidableEq κ] {keys : List κ}
    (distinct : keys.Nodup) {amount : κ → ℤ}
    (positive : ∀ key, 0 ≤ amount key) : (keys.map amount).sum ≤ ∑ key, amount key := by
  rw [← List.sum_toFinset _ distinct]
  exact Finset.sum_le_univ_sum_of_nonneg positive

/-! ## Stores and diffs -/

namespace Store

/-- The money that the store has for an account; an unknown one has none. -/
def funds (store : Store) (address : Address) : ℤ := ((store.balance? address).getD 0).toNat

/-- The money of all accounts. -/
def total (store : Store) : ℤ :=
  (store.accounts.toList.map fun entry => (entry.2.balance.toNat : ℤ)).sum

lemma funds_nonneg (store : Store) (address : Address) : 0 ≤ store.funds address :=
  Int.natCast_nonneg _

lemma total_eq (store : Store) : store.total = ∑ address, store.funds address := by
  rw [total, sum_entries store.accounts fun account => (account.balance.toNat : ℤ)]
  refine Finset.sum_congr rfl fun address _ => ?_
  cases found : store.accounts[address]? <;> simp [funds, balance?, get?, found]

lemma sum_funds_le (store : Store) {addresses : List Address} (distinct : addresses.Nodup) :
    (addresses.map store.funds).sum ≤ store.total := by
  rw [total_eq]
  exact sum_le_total distinct store.funds_nonneg

end Store

namespace Delta

/-- Adding does not saturate. -/
def Exact (a b : Delta) : Prop := (a.add b).val = a.val + b.val

lemma ofInt_val {n : ℤ} (lower : minValue ≤ n) (upper : n ≤ maxValue) : (ofInt n).val = n := by
  simp only [ofInt]
  omega

lemma exact_of_bounds {a b : Delta} (lower : minValue ≤ a.val + b.val)
    (upper : a.val + b.val ≤ maxValue) : a.Exact b :=
  ofInt_val lower upper

@[simp] lemma zero_val : zero.val = 0 := rfl

end Delta

namespace FrameDiff

/-- What the diff adds to the balance of an account. -/
def delta (diff : FrameDiff) (address : Address) : Delta := diff.balances.getD address Delta.zero

/-- What the diff adds to all balances together. -/
def total (diff : FrameDiff) : ℤ := (diff.balances.toList.map fun entry => entry.2.val).sum

lemma total_eq (diff : FrameDiff) : diff.total = ∑ address, (diff.delta address).val := by
  rw [total, sum_entries diff.balances Delta.val]
  refine Finset.sum_congr rfl fun address _ => ?_
  rw [delta, Std.ExtTreeMap.getD_eq_getD_getElem?]
  cases diff.balances[address]? <;> simp

lemma delta_credit (diff : FrameDiff) (credited address : Address) (amount : Delta) :
    (diff.credit credited amount).delta address
      = if credited = address then (diff.delta address).add amount else diff.delta address := by
  simp only [delta, credit, creditTo, Std.ExtTreeMap.getD_insert, Std.compare_eq_iff_eq]
  split_ifs with same
  · rw [same]
  · rfl

lemma delta_credit_val {diff : FrameDiff} {credited : Address} {amount : Delta}
    (exact' : (diff.delta credited).Exact amount) (address : Address) :
    ((diff.credit credited amount).delta address).val
      = (diff.delta address).val + if credited = address then amount.val else 0 := by
  rw [delta_credit]
  split_ifs with same
  · rw [same] at exact'
    exact exact'
  · rw [add_zero]

lemma balances_merge (diff newer : FrameDiff) (address : Address) :
    (diff.merge newer).balances[address]?
      = match newer.balances[address]? with
        | some amount => some ((diff.delta address).add amount)
        | none => diff.balances[address]? := by
  have entry := getElem?_foldl_toList Delta.add Delta.zero diff.balances newer.balances address
  change (diff.merge newer).balances[address]? = _ at entry
  rw [entry]
  cases newer.balances[address]? <;> rfl

lemma delta_merge (diff newer : FrameDiff) (address : Address) :
    (diff.merge newer).delta address
      = match newer.balances[address]? with
        | some amount => (diff.delta address).add amount
        | none => diff.delta address := by
  rw [delta, Std.ExtTreeMap.getD_eq_getD_getElem?, balances_merge]
  cases newer.balances[address]? <;> simp [delta, Std.ExtTreeMap.getD_eq_getD_getElem?]

/-- A diff that an account is not listed in adds nothing to its balance. -/
lemma delta_of_unlisted {diff : FrameDiff} {address : Address}
    (unlisted : diff.balances[address]? = none) : (diff.delta address).val = 0 := by
  rw [delta, Std.ExtTreeMap.getD_eq_getD_getElem?, unlisted]
  rfl

lemma delta_of_listed {diff : FrameDiff} {address : Address} {amount : Delta}
    (listed : diff.balances[address]? = some amount) : diff.delta address = amount := by
  rw [delta, Std.ExtTreeMap.getD_eq_getD_getElem?, listed]
  rfl

end FrameDiff

end ContractHost
