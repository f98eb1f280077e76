import ContractHost.Diff.Frame
import Mathlib.Tactic

/-!
# Reading a merged diff

Tables are merged entry by entry, which touches every key at most once.  So a merged table can be
read without looking at the merge: a key that the newer table lacks has what it had, and any other
has what it had joined with what the newer table says.

The part of a diff about storage has a second layer, since a slot that was written but has no value
was deleted.  `FrameDiff.Recorded` is what makes that encoding sound: **the newer diff decides every
slot it says anything about** (`FrameDiff.slot?_merge`), the deleted ones included.
-/

namespace ContractHost

/-! ## Tables -/

section Table

variable {κ β : Type} [Ord κ] [Std.TransOrd κ] [Std.LawfulEqOrd κ]
  (join : β → β → β) (unset : β)

/-- Joins the entry of a list with the entry of a table. -/
def joinEntry (table : Std.ExtTreeMap κ β) (entry : κ × β) : Std.ExtTreeMap κ β :=
  table.insert entry.1 (join (table.getD entry.1 unset) entry.2)

lemma getElem?_foldl_of_unlisted {entries : List (κ × β)} {key : κ}
    (unlisted : ∀ entry ∈ entries, entry.1 ≠ key) (table : Std.ExtTreeMap κ β) :
    (entries.foldl (joinEntry join unset) table)[key]? = table[key]? := by
  induction entries generalizing table with
  | nil => rfl
  | cons entry entries ih =>
      rw [List.forall_mem_cons] at unlisted
      rw [List.foldl_cons, ih unlisted.2, joinEntry, Std.ExtTreeMap.getElem?_insert,
        if_neg (by simpa using unlisted.1)]

lemma getElem?_foldl_of_listed {entries : List (κ × β)}
    (distinct : entries.Pairwise fun a b => a.1 ≠ b.1) {key : κ} {value : β}
    (listed : (key, value) ∈ entries) (table : Std.ExtTreeMap κ β) :
    (entries.foldl (joinEntry join unset) table)[key]?
      = some (join (table.getD key unset) value) := by
  induction entries generalizing table with
  | nil => simp at listed
  | cons entry entries ih =>
      rw [List.pairwise_cons] at distinct
      rw [List.foldl_cons]
      rcases List.mem_cons.1 listed with rfl | later
      · -- the rest of the list has other keys
        have unlisted : ∀ other ∈ entries, other.1 ≠ key :=
          fun other member => (distinct.1 other member).symm
        rw [getElem?_foldl_of_unlisted join unset unlisted, joinEntry,
          Std.ExtTreeMap.getElem?_insert_self]
      · have other : entry.1 ≠ key := distinct.1 _ later
        rw [ih distinct.2 later, joinEntry, Std.ExtTreeMap.getD_insert,
          if_neg (by simpa using other)]

lemma distinct_toList (table : Std.ExtTreeMap κ β) :
    table.toList.Pairwise fun a b => a.1 ≠ b.1 := by
  refine table.distinct_keys_toList.imp ?_
  intro a b differ same
  exact differ (by rw [same]; exact Std.ReflCmp.compare_self)

/-- A table after all entries of a newer one were joined with its own. -/
lemma getElem?_foldl_toList (table newer : Std.ExtTreeMap κ β) (key : κ) :
    (newer.toList.foldl (joinEntry join unset) table)[key]?
      = match newer[key]? with
        | some value => some (join (table.getD key unset) value)
        | none => table[key]? := by
  cases found : newer[key]? with
  | some value =>
      exact getElem?_foldl_of_listed join unset (distinct_toList newer)
        (Std.ExtTreeMap.mem_toList_iff_getElem?_eq_some.2 found) table
  | none =>
      refine getElem?_foldl_of_unlisted join unset ?_ table
      rintro ⟨key', value⟩ member rfl
      rw [Std.ExtTreeMap.mem_toList_iff_getElem?_eq_some.1 member] at found
      exact absurd found (by simp)

/-- A table has the keys of both. -/
lemma mem_foldl_toList (table newer : Std.ExtTreeMap κ β) (key : κ) :
    key ∈ newer.toList.foldl (joinEntry join unset) table ↔ key ∈ table ∨ key ∈ newer := by
  simp only [Std.ExtTreeMap.mem_iff_isSome_getElem?, getElem?_foldl_toList]
  cases newer[key]? <;> simp

end Table

/-! ## The storage of one account -/

lemma Word.eq_zero_of_isZero {value : Word} (zero : value.isZero = true) : value = Word.zero := by
  refine FixedBytes.ext (List.eq_replicate_iff.2 ⟨value.length_toList, ?_⟩)
  simpa [FixedBytes.isZero] using zero

namespace StorageDiff

/-- Every key with a value was written. -/
def Recorded (diff : StorageDiff) : Prop :=
  ∀ key, diff.written.contains key = false → diff.values[key]? = none

lemma recorded_empty : Recorded {} := by
  intro key _
  simp

lemma lookup_write (diff : StorageDiff) (written key value) :
    (diff.write written value).lookup key
      = if written = key then some value else diff.lookup key := by
  by_cases zero : value.isZero = true <;> by_cases same : written = key <;>
    simp [lookup, write, zero, same, Std.ExtTreeMap.getElem?_erase, Std.ExtTreeMap.getElem?_insert,
      Std.ExtTreeSet.contains_insert]
  exact (Word.eq_zero_of_isZero zero).symm

lemma Recorded.write {diff : StorageDiff} (recorded : diff.Recorded) (written value : Word) :
    (diff.write written value).Recorded := by
  intro key unwritten
  simp only [StorageDiff.write, Std.ExtTreeSet.contains_insert, Bool.or_eq_false_iff] at unwritten
  have other : compare written key ≠ .eq := by simpa using unwritten.1
  simp only [StorageDiff.write]
  split_ifs <;>
    simp [Std.ExtTreeMap.getElem?_erase, Std.ExtTreeMap.getElem?_insert, other,
      recorded key unwritten.2]

lemma lookup_adopt (diff newer : StorageDiff) (adopted key : Word) :
    (diff.adopt newer adopted).lookup key
      = if adopted = key then some (newer.values[adopted]?.getD Word.zero)
        else diff.lookup key := by
  by_cases same : adopted = key
  · subst same
    cases found : newer.values[adopted]? <;>
      simp [lookup, adopt, found, Std.ExtTreeSet.contains_insert]
  · cases found : newer.values[adopted]? <;>
      simp [lookup, adopt, found, same, Std.ExtTreeMap.getElem?_erase,
        Std.ExtTreeMap.getElem?_insert, Std.ExtTreeSet.contains_insert]

lemma Recorded.adopt {diff : StorageDiff} (recorded : diff.Recorded) (newer : StorageDiff)
    (adopted : Word) : (diff.adopt newer adopted).Recorded := by
  intro key unwritten
  simp only [StorageDiff.adopt, Std.ExtTreeSet.contains_insert, Bool.or_eq_false_iff] at unwritten
  have other : compare adopted key ≠ .eq := by simpa using unwritten.1
  simp only [StorageDiff.adopt]
  split <;>
    simp [Std.ExtTreeMap.getElem?_erase, Std.ExtTreeMap.getElem?_insert, other,
      recorded key unwritten.2]

lemma lookup_foldl_adopt (newer : StorageDiff) (keys : List Word) (diff : StorageDiff)
    (key : Word) :
    (keys.foldl (fun merged key => merged.adopt newer key) diff).lookup key
      = if key ∈ keys then some (newer.values[key]?.getD Word.zero) else diff.lookup key := by
  induction keys generalizing diff with
  | nil => simp
  | cons first keys ih =>
      rw [List.foldl_cons, ih, lookup_adopt]
      by_cases same : first = key
      · subst same
        simp
      · have other : key ≠ first := fun h => same h.symm
        simp [same, other]

/-- The newer diff decides every slot it says anything about. -/
lemma lookup_merge (diff : StorageDiff) {newer : StorageDiff} (recorded : newer.Recorded)
    (key : Word) : (diff.merge newer).lookup key = (newer.lookup key).or (diff.lookup key) := by
  rw [merge, lookup_foldl_adopt]
  simp only [Std.ExtTreeSet.mem_toList, ← Std.ExtTreeSet.contains_iff_mem]
  cases written : newer.written.contains key with
  | true => cases found : newer.values[key]? <;> simp [lookup, found, written]
  | false => simp [lookup, recorded key written, written]

lemma Recorded.merge {diff : StorageDiff} (recorded : diff.Recorded) (newer : StorageDiff) :
    (diff.merge newer).Recorded := by
  rw [StorageDiff.merge]
  induction newer.written.toList generalizing diff with
  | nil => exact recorded
  | cons key keys ih => exact ih (recorded.adopt newer key)

end StorageDiff

/-! ## Diffs -/

namespace FrameDiff

/-- The storage of every account is recorded. -/
def Recorded (diff : FrameDiff) : Prop :=
  ∀ address, (diff.storage.getD address {}).Recorded

lemma recorded_empty : Recorded {} := by
  intro address
  simpa using StorageDiff.recorded_empty

/-- What holds of an account without writes holds of all entries exactly if it holds of what is read
for all accounts. -/
lemma forall_storage_iff {holds : StorageDiff → Prop} (unset : holds {}) (diff : FrameDiff) :
    (∀ (address : Address) account, diff.storage[address]? = some account → holds account)
      ↔ ∀ address, holds (diff.storage.getD address {}) := by
  refine forall_congr' fun address => ?_
  rw [Std.ExtTreeMap.getD_eq_getD_getElem?]
  cases diff.storage[address]? <;> simp [unset]

lemma slot?_eq (diff : FrameDiff) (address : Address) (key : Word) :
    diff.slot? address key = (diff.storage.getD address {}).lookup key := by
  rw [slot?, Std.ExtTreeMap.getD_eq_getD_getElem?]
  cases diff.storage[address]? <;> simp [StorageDiff.lookup]

lemma storage_writeSlot (diff : FrameDiff) (written address : Address) (key value : Word) :
    (diff.writeSlot written key value).storage.getD address {}
      = if written = address then (diff.storage.getD address {}).write key value
        else diff.storage.getD address {} := by
  simp only [writeSlot, modifyStorage, Std.ExtTreeMap.getD_insert, Std.compare_eq_iff_eq]
  split_ifs with same
  · rw [same]
  · rfl

lemma slot?_writeSlot (diff : FrameDiff) (written address : Address) (key key' value : Word) :
    (diff.writeSlot written key value).slot? address key'
      = if written = address ∧ key = key' then some value else diff.slot? address key' := by
  rw [slot?_eq, slot?_eq, storage_writeSlot]
  by_cases same : written = address <;> simp [same, StorageDiff.lookup_write]

lemma Recorded.writeSlot {diff : FrameDiff} (recorded : diff.Recorded) (written : Address)
    (key value : Word) : (diff.writeSlot written key value).Recorded := by
  intro address
  rw [storage_writeSlot]
  split_ifs
  · exact (recorded address).write key value
  · exact recorded address

lemma storage_merge (diff newer : FrameDiff) (address : Address) :
    (diff.merge newer).storage.getD address {}
      = match newer.storage[address]? with
        | some account => (diff.storage.getD address {}).merge account
        | none => diff.storage.getD address {} := by
  have entry := getElem?_foldl_toList StorageDiff.merge {} diff.storage newer.storage address
  change (diff.merge newer).storage[address]? = _ at entry
  rw [Std.ExtTreeMap.getD_eq_getD_getElem?, entry]
  cases newer.storage[address]? <;> simp [Std.ExtTreeMap.getD_eq_getD_getElem?]

/-- **The newer diff decides every slot it says anything about.** -/
theorem slot?_merge (diff : FrameDiff) {newer : FrameDiff} (recorded : newer.Recorded)
    (address : Address) (key : Word) :
    (diff.merge newer).slot? address key
      = (newer.slot? address key).or (diff.slot? address key) := by
  have recorded := recorded address
  rw [slot?_eq, slot?_eq, slot?_eq, storage_merge]
  rw [Std.ExtTreeMap.getD_eq_getD_getElem?] at recorded
  cases found : newer.storage[address]? with
  | none => simp [Std.ExtTreeMap.getD_eq_getD_getElem?, found, StorageDiff.lookup]
  | some account =>
      rw [found, Option.getD_some] at recorded
      simp only [StorageDiff.lookup_merge _ recorded, Std.ExtTreeMap.getD_eq_getD_getElem?, found,
        Option.getD_some]

lemma Recorded.merge {diff : FrameDiff} (recorded : diff.Recorded) (newer : FrameDiff) :
    (diff.merge newer).Recorded := by
  intro address
  rw [storage_merge]
  cases newer.storage[address]? with
  | none => exact recorded address
  | some account => exact (recorded address).merge account

end FrameDiff

end ContractHost
