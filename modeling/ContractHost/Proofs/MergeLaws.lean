import ContractHost.Proofs.MergedView
import ContractHost.Proofs.VisibleBalance
import ContractHost.Proofs.WriteStatus

/-!
# The laws of merging

Diffs are merged one by one while calls return, so a diff that ends up in the frame at the root may
have come there along several frames.  It does not matter along which: merging is associative and
has the empty diff as its unit.  It does not matter either in which order two calls of one frame
were made, if they wrote different slots and destroyed different accounts.

All this is shown per key.  A joined table has the keys of both, and what is read from it is what is
read from both, joined (`getD_joinTables`), so a law of the join is a law of the tables.  Joins of
storage obey the laws without exception.  Joins of amounts saturate, so there the laws ask for sums
in range, and only for those that are formed on the way: a total that is out of range is cut off in
the same way on both sides.

* `joinTables` — a table joined with a newer one, its laws after those of the join.
* **`FrameDiff.merge_monoid`** — diffs form a monoid.
* **`FrameDiff.merge_independent`** — independent diffs may be merged in either order.
-/

namespace ContractHost

/-! ## Tables -/

section Table

variable {κ β : Type} [Ord κ] [Std.TransOrd κ] [Std.LawfulEqOrd κ]
  {join : β → β → β} {unset : β}

/-- A table after all entries of a newer one were joined with its own. -/
def joinTables (join : β → β → β) (unset : β) (older newer : Std.ExtTreeMap κ β) :
    Std.ExtTreeMap κ β :=
  newer.toList.foldl (joinEntry join unset) older

lemma mem_joinTables {older newer : Std.ExtTreeMap κ β} {key : κ} :
    key ∈ joinTables join unset older newer ↔ key ∈ older ∨ key ∈ newer :=
  mem_foldl_toList join unset older newer key

/-- What is read from a joined table is what is read from both, joined. -/
lemma getD_joinTables (right_unset : ∀ value, join value unset = value)
    (older newer : Std.ExtTreeMap κ β) (key : κ) :
    (joinTables join unset older newer).getD key unset
      = join (older.getD key unset) (newer.getD key unset) := by
  have entry := getElem?_foldl_toList join unset older newer key
  rw [Std.ExtTreeMap.getD_eq_getD_getElem?, joinTables, entry,
    Std.ExtTreeMap.getD_eq_getD_getElem? (t := newer)]
  cases newer[key]? with
  | some value => rfl
  | none =>
      rw [Option.getD_none, right_unset, Std.ExtTreeMap.getD_eq_getD_getElem?]

omit [Std.LawfulEqOrd κ] in
/-- An entry is known from whether there is one and from what is read. -/
lemma getElem?_eq_of_getD (unset : β) {s t : Std.ExtTreeMap κ β} {key : κ}
    (mem : key ∈ s ↔ key ∈ t) (read : s.getD key unset = t.getD key unset) : s[key]? = t[key]? := by
  rw [Std.ExtTreeMap.mem_iff_isSome_getElem?, Std.ExtTreeMap.mem_iff_isSome_getElem?] at mem
  rw [Std.ExtTreeMap.getD_eq_getD_getElem?, Std.ExtTreeMap.getD_eq_getD_getElem?] at read
  cases found : s[key]? with
  | some value =>
      rw [found] at mem read
      obtain ⟨other, found'⟩ := Option.isSome_iff_exists.1 (mem.1 rfl)
      rw [found'] at read ⊢
      exact congrArg some read
  | none =>
      rw [found] at mem
      cases found' : t[key]? with
      | some other => simp [found'] at mem
      | none => rfl

lemma joinTables_empty (join : β → β → β) (unset : β) (older : Std.ExtTreeMap κ β) :
    joinTables join unset older ∅ = older := by
  refine Std.ExtTreeMap.ext_getElem? fun key => ?_
  simp [joinTables, getElem?_foldl_toList]

/-- The empty table is a left unit for the tables whose entries the join leaves alone. -/
lemma empty_joinTables_iff (right_unset : ∀ value, join value unset = value)
    (table : Std.ExtTreeMap κ β) :
    joinTables join unset ∅ table = table
      ↔ ∀ key, join unset (table.getD key unset) = table.getD key unset := by
  have read : ∀ key, (joinTables join unset ∅ table).getD key unset
      = join unset (table.getD key unset) := by
    intro key
    rw [getD_joinTables right_unset]
    simp
  constructor
  · intro same key
    rw [← read key, same]
  · intro unit
    refine Std.ExtTreeMap.ext_getElem? fun key => getElem?_eq_of_getD unset ?_ ?_
    · simp [mem_joinTables]
    · rw [read key, unit key]

/-- Joining tables is associative where the join is. -/
lemma joinTables_assoc_iff (right_unset : ∀ value, join value unset = value)
    (older newer newest : Std.ExtTreeMap κ β) :
    joinTables join unset (joinTables join unset older newer) newest
        = joinTables join unset older (joinTables join unset newer newest)
      ↔ ∀ key, join (join (older.getD key unset) (newer.getD key unset)) (newest.getD key unset)
        = join (older.getD key unset) (join (newer.getD key unset) (newest.getD key unset)) := by
  constructor
  · intro same key
    have read := congrArg (fun table => table.getD key unset) same
    simpa only [getD_joinTables right_unset] using read
  · intro assoc
    refine Std.ExtTreeMap.ext_getElem? fun key => getElem?_eq_of_getD unset ?_ ?_
    · simp only [mem_joinTables, or_assoc]
    · simp only [getD_joinTables right_unset, assoc key]

/-- Two tables may be joined with a third in either order, at the keys where this holds of the
join. -/
lemma getElem?_joinTables_right_comm (right_unset : ∀ value, join value unset = value)
    (table first second : Std.ExtTreeMap κ β) {key : κ}
    (comm : join (join (table.getD key unset) (first.getD key unset)) (second.getD key unset)
      = join (join (table.getD key unset) (second.getD key unset)) (first.getD key unset)) :
    (joinTables join unset (joinTables join unset table first) second)[key]?
      = (joinTables join unset (joinTables join unset table second) first)[key]? := by
  refine getElem?_eq_of_getD unset ?_ ?_
  · simp only [mem_joinTables, or_assoc, or_comm (a := key ∈ first)]
  · simp only [getD_joinTables right_unset, comm]

end Table

/-! ## Unions -/

section Union

variable {κ β : Type} [Ord κ] [Std.TransOrd κ] [Std.LawfulEqOrd κ]

lemma tableUnion_assoc (a b c : Std.ExtTreeMap κ β) : a ∪ b ∪ c = a ∪ (b ∪ c) := by
  refine Std.ExtTreeMap.ext_getElem? fun key => ?_
  simp only [Std.ExtTreeMap.getElem?_union, Option.or_assoc]

lemma tableUnion_empty (table : Std.ExtTreeMap κ β) : table ∪ ∅ = table := by
  refine Std.ExtTreeMap.ext_getElem? fun key => ?_
  simp [Std.ExtTreeMap.getElem?_union]

lemma empty_tableUnion (table : Std.ExtTreeMap κ β) : ∅ ∪ table = table := by
  refine Std.ExtTreeMap.ext_getElem? fun key => ?_
  simp [Std.ExtTreeMap.getElem?_union]

/-- For a key that two tables share, the one that comes last decides. -/
lemma tableUnion_right_comm (table : Std.ExtTreeMap κ β) {first second : Std.ExtTreeMap κ β}
    (apart : ∀ key, ¬ (key ∈ first ∧ key ∈ second)) :
    table ∪ first ∪ second = table ∪ second ∪ first := by
  refine Std.ExtTreeMap.ext_getElem? fun key => ?_
  have apart := apart key
  simp only [Std.ExtTreeMap.mem_iff_isSome_getElem?] at apart
  simp only [Std.ExtTreeMap.getElem?_union]
  cases early : first[key]? with
  | none => rw [Option.none_or, Option.none_or]
  | some value =>
      cases late : second[key]? with
      | none => rfl
      | some other => simp [early, late] at apart

lemma setUnion_assoc (a b c : Std.ExtTreeSet κ) : a ∪ b ∪ c = a ∪ (b ∪ c) := by
  refine Std.ExtTreeSet.ext_mem fun key => ?_
  simp only [Std.ExtTreeSet.mem_union_iff, or_assoc]

lemma setUnion_empty (set : Std.ExtTreeSet κ) : set ∪ ∅ = set := by
  refine Std.ExtTreeSet.ext_mem fun key => ?_
  simp [Std.ExtTreeSet.mem_union_iff]

lemma setUnion_comm (a b : Std.ExtTreeSet κ) : a ∪ b = b ∪ a := by
  refine Std.ExtTreeSet.ext_mem fun key => ?_
  simp only [Std.ExtTreeSet.mem_union_iff, or_comm]

lemma setUnion_right_comm (set first second : Std.ExtTreeSet κ) :
    set ∪ first ∪ second = set ∪ second ∪ first := by
  rw [setUnion_assoc, setUnion_comm first, setUnion_assoc]

end Union

/-! ## The storage of one account -/

namespace StorageDiff

lemma ext_reads {a b : StorageDiff} (values : ∀ key : Word, a.values[key]? = b.values[key]?)
    (written : ∀ key, a.written.contains key = true ↔ b.written.contains key = true) : a = b := by
  obtain ⟨valuesA, writtenA⟩ := a
  obtain ⟨valuesB, writtenB⟩ := b
  rw [mk.injEq]
  refine ⟨Std.ExtTreeMap.ext_getElem? values, Std.ExtTreeSet.ext_mem fun key => ?_⟩
  simpa only [Std.ExtTreeSet.contains_iff_mem] using written key

lemma values_foldl_adopt (newer : StorageDiff) (keys : List Word) (diff : StorageDiff)
    (key : Word) :
    (keys.foldl (fun merged key => merged.adopt newer key) diff).values[key]?
      = if key ∈ keys then newer.values[key]? else diff.values[key]? := by
  induction keys generalizing diff with
  | nil => simp
  | cons first keys ih =>
      rw [List.foldl_cons, ih]
      by_cases later : key ∈ keys
      · simp [later]
      · by_cases same : first = key
        · subst same
          cases found : newer.values[first]? <;> simp [adopt, found]
        · have other : key ≠ first := fun h => same h.symm
          cases found : newer.values[first]? <;>
            simp [adopt, found, later, same, other, Std.ExtTreeMap.getElem?_erase,
              Std.ExtTreeMap.getElem?_insert]

/-- For a key that the newer diff wrote, its value decides, or that it has none. -/
lemma values_merge (diff newer : StorageDiff) (key : Word) :
    (diff.merge newer).values[key]?
      = if newer.written.contains key = true then newer.values[key]? else diff.values[key]? := by
  simp only [merge, values_foldl_adopt, Std.ExtTreeSet.mem_toList, Std.ExtTreeSet.contains_iff_mem]

lemma merge_empty (diff : StorageDiff) : diff.merge {} = diff := by
  refine ext_reads (fun key => ?_) fun key => ?_
  · simp [values_merge]
  · rw [written_merge]
    simp

/-- Merging drops the values that were not written, and these only. -/
lemma empty_merge_iff (diff : StorageDiff) : merge {} diff = diff ↔ diff.Recorded := by
  constructor
  · intro same
    rw [← same]
    exact recorded_empty.merge diff
  · intro recorded
    refine ext_reads (fun key => ?_) fun key => ?_
    · rw [values_merge]
      split_ifs with written
      · rfl
      · rw [recorded key (Bool.eq_false_of_not_eq_true written)]
        simp
    · rw [written_merge]
      simp

/-- Which write of a slot came last does not depend on the order of the merges. -/
lemma merge_assoc (older newer newest : StorageDiff) :
    (older.merge newer).merge newest = older.merge (newer.merge newest) := by
  refine ext_reads (fun key => ?_) fun key => ?_
  · simp only [values_merge, written_merge]
    by_cases last : newest.written.contains key = true
    · simp only [last, or_true, if_true]
    · simp only [last, or_false, if_false, Bool.false_eq_true]
  · simp only [written_merge, or_assoc]

lemma merge_right_comm (diff : StorageDiff) {first second : StorageDiff}
    (apart : ∀ key, first.written.contains key = true → second.written.contains key = false) :
    (diff.merge first).merge second = (diff.merge second).merge first := by
  refine ext_reads (fun key => ?_) fun key => ?_
  · simp only [values_merge]
    by_cases early : first.written.contains key = true
    · simp only [early, apart key early, if_true, Bool.false_eq_true, if_false]
    · simp only [early, if_false, Bool.false_eq_true]
  · simp only [written_merge, or_assoc, or_comm (a := first.written.contains key = true)]

end StorageDiff

/-! ## Amounts -/

namespace Delta

/-- The number has 128 bits with a sign. -/
def InRange (n : ℤ) : Prop := minValue ≤ n ∧ n ≤ maxValue
deriving Decidable

lemma add_zero (a : Delta) : a.add zero = a := by
  rw [add_comm, zero_add]

variable {a b c : Delta}

/-- If the two sums that are formed first do not saturate, three amounts add up to the same. -/
lemma add_assoc (first : a.Exact b) (last : b.Exact c) : (a.add b).add c = a.add (b.add c) := by
  rw [add, first, add, last, Int.add_assoc]

lemma add_right_comm (left : a.Exact b) (right : a.Exact c) :
    (a.add b).add c = (a.add c).add b := by
  rw [add, left, add, right, Int.add_right_comm]

end Delta

/-- Two changes that add up to a number in range are added without saturation. -/
lemma FrameDiff.delta_exact {older newer : FrameDiff} {address : Address}
    (within : Delta.InRange (netChange [older, newer] address)) :
    (older.delta address).Exact (newer.delta address) := by
  have sum : netChange [older, newer] address
      = (older.delta address).val + (newer.delta address).val := by
    simp [netChange]
  rw [sum] at within
  exact Delta.exact_of_bounds within.1 within.2

/-! ## Diffs -/

namespace FrameDiff

/-- Diffs with equal parts are equal. -/
lemma ext_parts {a b : FrameDiff} (storage : a.storage = b.storage)
    (balances : a.balances = b.balances) (destroyed : a.destroyed = b.destroyed)
    (logs : a.logs = b.logs) (warmAccounts : a.warmAccounts = b.warmAccounts)
    (warmSlots : a.warmSlots = b.warmSlots) : a = b := by
  cases a
  cases b
  simp_all

section Laws

variable (older newer newest : FrameDiff)

lemma storage_merge_assoc :
    ((older.merge newer).merge newest).storage = (older.merge (newer.merge newest)).storage :=
  (joinTables_assoc_iff StorageDiff.merge_empty _ _ _).2 fun _ => StorageDiff.merge_assoc ..

/-- **Saturation is all that keeps merging from being associative.** -/
theorem merge_assoc_iff :
    (older.merge newer).merge newest = older.merge (newer.merge newest)
      ↔ ∀ address, ((older.delta address).add (newer.delta address)).add (newest.delta address)
        = (older.delta address).add ((newer.delta address).add (newest.delta address)) := by
  have balances := joinTables_assoc_iff Delta.add_zero older.balances newer.balances newest.balances
  constructor
  · intro same
    exact balances.1 (congrArg FrameDiff.balances same)
  · intro assoc
    exact ext_parts (storage_merge_assoc ..) (balances.2 assoc) (tableUnion_assoc ..)
      (List.append_assoc ..) (setUnion_assoc ..) (setUnion_assoc ..)

lemma merge_empty_right (diff : FrameDiff) : diff.merge {} = diff :=
  ext_parts (joinTables_empty StorageDiff.merge {} diff.storage)
    (joinTables_empty Delta.add Delta.zero diff.balances) (tableUnion_empty _) (List.append_nil _)
    (setUnion_empty _) (setUnion_empty _)

/-- Merging a diff into the empty one drops the values that were not written, and these only. -/
theorem empty_merge_iff (diff : FrameDiff) :
    merge {} diff = diff ↔ ∀ (address : Address) account,
      diff.storage[address]? = some account → account.Recorded := by
  have storage := empty_joinTables_iff StorageDiff.merge_empty diff.storage
  simp only [StorageDiff.empty_merge_iff] at storage
  rw [diff.forall_storage_iff StorageDiff.recorded_empty]
  constructor
  · intro same
    exact storage.1 (congrArg FrameDiff.storage same)
  · intro recorded
    have balances := (empty_joinTables_iff Delta.add_zero diff.balances).2
      fun _ => Delta.zero_add _
    refine ext_parts (storage.2 recorded) balances (empty_tableUnion _) (List.nil_append _) ?_ ?_
    · exact (setUnion_comm _ _).trans (setUnion_empty _)
    · exact (setUnion_comm _ _).trans (setUnion_empty _)

end Laws

/-- **Diffs form a monoid.**  The empty diff is a unit, on the left for exactly those diffs whose
values were all written, and merging is associative as long as for every account neither the two
older changes nor the two newer ones add up to a number out of range. -/
theorem merge_monoid :
    (∀ diff : FrameDiff, diff.merge {} = diff) ∧
    (∀ diff : FrameDiff, merge {} diff = diff ↔ ∀ (address : Address) account,
      diff.storage[address]? = some account → account.Recorded) ∧
    ∀ older newer newest : FrameDiff,
      (∀ address, Delta.InRange (netChange [older, newer] address) ∧
        Delta.InRange (netChange [newer, newest] address)) →
      (older.merge newer).merge newest = older.merge (newer.merge newest) := by
  refine ⟨merge_empty_right, empty_merge_iff, fun older newer newest within => ?_⟩
  rw [merge_assoc_iff]
  intro address
  exact Delta.add_assoc (delta_exact (within address).1) (delta_exact (within address).2)

/-- A slot is written, and its account is given almost all that it can have. -/
def heyday : FrameDiff :=
  (empty.writeSlot Address.zero Word.zero (Word.ofNat 1)).credit Address.zero
    (Delta.ofInt (Delta.maxValue - 7))

/-- The slot is deleted, and the account given the rest. -/
def clearance : FrameDiff :=
  (empty.writeSlot Address.zero Word.zero Word.zero).credit Address.zero (Delta.ofInt 7)

/-- The slot is written again, at a small loss. -/
def renewal : FrameDiff :=
  (empty.writeSlot Address.zero Word.zero (Word.ofNat 2)).credit Address.zero (Delta.ofInt (-5))

lemma delta_of_credited (key value : Word) (amount : Delta) (address : Address) :
    (((empty.writeSlot Address.zero key value).credit Address.zero amount).delta address)
      = if Address.zero = address then amount else Delta.zero := by
  rw [delta_credit]
  simp [delta, writeSlot, modifyStorage, empty, Delta.zero_add]

/-- The last write wins, along whichever frames it comes. -/
theorem renewal_merged :
    (∀ address, Delta.InRange (netChange [heyday, clearance] address) ∧
      Delta.InRange (netChange [clearance, renewal] address)) ∧
    (heyday.merge clearance).merge renewal = heyday.merge (clearance.merge renewal) ∧
    (heyday.merge (clearance.merge renewal)).slot? Address.zero Word.zero
      = some (Word.ofNat 2) := by
  have within : ∀ address, Delta.InRange (netChange [heyday, clearance] address) ∧
      Delta.InRange (netChange [clearance, renewal] address) := by
    intro address
    simp only [netChange, List.map_cons, List.map_nil, heyday, clearance, renewal,
      delta_of_credited]
    split_ifs <;> decide
  exact ⟨within, merge_monoid.2.2 heyday clearance renewal within, by decide +kernel⟩

/-- **Independent diffs may be merged in either order.**  Let no slot be written by both diffs, and
no account destroyed by both; they may well change the same accounts.  Then the order shows in the
logs only, and in the balances of accounts that both change and that come out of range with one of
the two. -/
theorem merge_independent {diff first second : FrameDiff}
    (slots : ∀ address key, ¬ (first.wrote address key = true ∧ second.wrote address key = true))
    (destroyed : ∀ address, ¬ (address ∈ first.destroyed ∧ address ∈ second.destroyed)) :
    let one := (diff.merge first).merge second
    let other := (diff.merge second).merge first
    one.storage = other.storage ∧ one.destroyed = other.destroyed ∧
    one.warmAccounts = other.warmAccounts ∧ one.warmSlots = other.warmSlots ∧
    (∀ address, address ∉ first.balances ∨ address ∉ second.balances ∨
        (Delta.InRange (netChange [diff, first] address) ∧
          Delta.InRange (netChange [diff, second] address)) →
      one.balances[address]? = other.balances[address]?) ∧
    one.logs = diff.logs ++ first.logs ++ second.logs ∧
    other.logs = diff.logs ++ second.logs ++ first.logs := by
  refine ⟨?_, tableUnion_right_comm _ destroyed, setUnion_right_comm _ _ _,
    setUnion_right_comm _ _ _, fun address apart => ?_, rfl, rfl⟩
  · refine Std.ExtTreeMap.ext_getElem? fun address => ?_
    refine getElem?_joinTables_right_comm StorageDiff.merge_empty _ _ _ ?_
    refine StorageDiff.merge_right_comm _ fun key early => ?_
    exact Bool.eq_false_of_not_eq_true fun late => slots address key ⟨early, late⟩
  · refine getElem?_joinTables_right_comm Delta.add_zero _ _ _ ?_
    rcases apart with unlisted | unlisted | ⟨one, other⟩
    · rw [Std.ExtTreeMap.getD_eq_fallback unlisted, Delta.add_zero, Delta.add_zero]
    · rw [Std.ExtTreeMap.getD_eq_fallback unlisted, Delta.add_zero, Delta.add_zero]
    · exact Delta.add_right_comm (delta_exact one) (delta_exact other)

/-- Another slot of that account is written, and the account destroyed. -/
def handover : FrameDiff :=
  ((empty.writeSlot Address.zero (Word.ofNat 1) (Word.ofNat 2)).credit Address.zero
    (Delta.ofInt 4)).destroy Address.zero Address.zero

/-- One account, of which a call clears a slot and another call writes another. -/
theorem handover_merged :
    (∀ address key, ¬ (clearance.wrote address key = true ∧ handover.wrote address key = true)) ∧
    (∀ address, ¬ (address ∈ clearance.destroyed ∧ address ∈ handover.destroyed)) ∧
    ((heyday.merge clearance).merge handover).storage
      = ((heyday.merge handover).merge clearance).storage ∧
    ((heyday.merge clearance).merge handover).balances[Address.zero]?
      = ((heyday.merge handover).merge clearance).balances[Address.zero]? := by
  have slots : ∀ address key,
      ¬ (clearance.wrote address key = true ∧ handover.wrote address key = true) := by
    rintro address key ⟨cleared, written⟩
    have one : address = Address.zero ∧ key = Word.zero := by
      simpa [wrote, empty] using
        (wrote_writeSlot empty address key Address.zero Word.zero Word.zero).1 cleared
    have other : address = Address.zero ∧ key = Word.ofNat 1 := by
      simpa [wrote, empty] using
        (wrote_writeSlot empty address key Address.zero (Word.ofNat 1) _).1 written
    have same : Word.zero = Word.ofNat 1 := one.2.symm.trans other.2
    exact absurd same (by decide)
  have destroyed : ∀ address,
      ¬ (address ∈ clearance.destroyed ∧ address ∈ handover.destroyed) := by
    intro address
    simp [clearance, credit, writeSlot, modifyStorage, empty]
  obtain ⟨storage, -, -, -, balances, -, -⟩ := @merge_independent heyday _ _ slots destroyed
  refine ⟨slots, destroyed, storage, balances Address.zero (.inr (.inr ?_))⟩
  decide +kernel

end FrameDiff

end ContractHost
