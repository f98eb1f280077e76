import ContractHost.Proofs.NestedCall
import ContractHost.Proofs.Total
import ContractHost.Proofs.Words

/-!
# Balances near the limit

A store has balances of 128 bits without a sign, and the frames change them by amounts of 128 bits
with one.  A balance that is read is computed as such an amount.  So what is read is the balance in
the store plus all changes, as long as neither the one nor the other exceeds `Delta.maxValue`, and
too little otherwise.

* `netChange` — what some diffs add to a balance, as a plain number.
* **`Host.balance_answer`** — what is answered for each account, and exactly when it is the truth.
* `hoard_misreported` — a balance of 2 ^ 127 is answered as one less.
-/

namespace ContractHost

/-! ## Changes along the frames -/

/-- What some diffs add to the balance of an account. -/
def netChange (diffs : List FrameDiff) (address : Address) : ℤ :=
  (diffs.map fun diff => (diff.delta address).val).sum

section NetChange

variable {address : Address}

lemma netChange_cons (diff : FrameDiff) (below : List FrameDiff) :
    netChange (diff :: below) address = (diff.delta address).val + netChange below address := by
  rw [netChange, List.map_cons, List.sum_cons, netChange]

/-- A walk along the frames that never leaves the range of amounts adds up all changes. -/
lemma foldl_add_netChange (diffs : List FrameDiff) {sum : Delta}
    (within : ∀ newer, newer <+: diffs →
      Delta.minValue ≤ sum.val + netChange newer address ∧
        sum.val + netChange newer address ≤ Delta.maxValue) :
    ((diffs.filterMap fun diff => diff.balances[address]?).foldl Delta.add sum).val
      = sum.val + netChange diffs address := by
  induction diffs generalizing sum with
  | nil => simp [netChange]
  | cons diff below ih =>
      have next : ∀ newer, newer <+: below →
          Delta.minValue ≤ sum.val + (diff.delta address).val + netChange newer address ∧
            sum.val + (diff.delta address).val + netChange newer address ≤ Delta.maxValue := by
        intro newer start
        have bounds := within (diff :: newer) (List.cons_prefix_cons.2 ⟨rfl, start⟩)
        rwa [netChange_cons, ← add_assoc] at bounds
      rw [netChange_cons, ← add_assoc, List.filterMap_cons]
      cases listed : diff.balances[address]? with
      | none =>
          rw [FrameDiff.delta_of_unlisted listed, add_zero] at next ⊢
          exact ih next
      | some amount =>
          rw [FrameDiff.delta_of_listed listed] at next ⊢
          have here := next [] List.nil_prefix
          rw [netChange, List.map_nil, List.sum_nil, add_zero] at here
          have step : (sum.add amount).val = sum.val + amount.val :=
            Delta.exact_of_bounds here.1 here.2
          rw [← step] at next ⊢
          exact ih next

/-- Diffs that an account is not listed in add nothing to its balance. -/
lemma netChange_of_unlisted {diffs : List FrameDiff}
    (unlisted : ∀ diff ∈ diffs, diff.balances[address]? = none) : netChange diffs address = 0 := by
  induction diffs with
  | nil => rfl
  | cons diff below ih =>
      rw [List.forall_mem_cons] at unlisted
      rw [netChange_cons, FrameDiff.delta_of_unlisted unlisted.1, ih unlisted.2, add_zero]

end NetChange

/-! ## Answers -/

namespace Host

variable {host : Host} {frame : Frame} {below : List Frame} {address : Address}

/-- What the account should have: what it has in the store, and all that frames have added. -/
def due (host : Host) (address : Address) : ℤ :=
  host.store.funds address + netChange host.stack.diffs address

/-- Adding up the changes along the frames, from the top downwards, never leaves the range of
amounts. -/
def InRange (host : Host) (address : Address) : Prop :=
  ∀ newer, newer <+: host.stack.diffs →
    Delta.minValue ≤ netChange newer address ∧ netChange newer address ≤ Delta.maxValue

lemma balanceDelta_val (within : host.InRange address) :
    (host.stack.balanceDelta address).val = netChange host.stack.diffs address := by
  rw [CallStack.balanceDelta_eq, foldl_add_netChange, Delta.zero_val, zero_add]
  intro newer start
  rw [Delta.zero_val, zero_add]
  exact within newer start

lemma visibleBalance_of_unknown (unknown : host.store.contains address = false)
    (untouched : host.stack.touches address = false) : host.visibleBalance address = none := by
  rw [Store.contains_eq_isSome_get?, Option.isSome_eq_false_iff, Option.isNone_iff_eq_none]
    at unknown
  simp [visibleBalance, Store.balance?, unknown, untouched]

/-- The balance in the store is cut off before the changes are added, and the sum once more. -/
lemma visibleBalance_of_known
    (known : host.store.contains address = true ∨ host.stack.touches address = true)
    (within : host.InRange address) :
    host.visibleBalance address
      = some (min Delta.maxValue (min Delta.maxValue (host.store.funds address)
          + netChange host.stack.diffs address)).toNat := by
  have seen : ((host.store.balance? address).isNone && !host.stack.touches address) = false := by
    rw [Store.contains_eq_isSome_get?] at known
    rw [Store.balance?, Option.isNone_map, Bool.and_eq_false_iff]
    exact known.imp (by simp +contextual) (by simp)
  have positive := host.store.funds_nonneg address
  have changes := balanceDelta_val within
  rw [visibleBalance, seen, if_neg Bool.false_ne_true]
  change some ((host.estate address).add (host.stack.balanceDelta address)).val.toNat = _
  have start : (host.estate address).val = min Delta.maxValue (host.store.funds address) := by
    change max Delta.minValue (min (host.store.funds address) Delta.maxValue) = _
    simp only [Delta.minValue, Delta.maxValue]
    omega
  have total : ((host.estate address).add (host.stack.balanceDelta address)).val
      = max Delta.minValue (min ((host.estate address).val
          + (host.stack.balanceDelta address).val) Delta.maxValue) := rfl
  rw [total, start, changes]
  congr 1
  simp only [Delta.minValue, Delta.maxValue]
  omega

/-- **What is read as a balance.**  An account that is neither known nor touched has none.  For any
other, let the changes along the frames stay in range, and let what the account should have be a
number of 128 bits.  Then the answer is the sum of the balance in the store and the changes, where
both the former and the sum are cut off at the largest amount.  This is what the account should have
exactly if nothing was cut off, or if nothing is left of the balance. -/
theorem balance_answer (live : host.stack.frames = frame :: below) (address : Address) :
    (host.store.contains address = false → host.stack.touches address = false →
      (host.answer (.balance address)).1 = []) ∧
    (host.store.contains address = true ∨ host.stack.touches address = true →
      host.InRange address → 0 ≤ host.due address → host.due address < 2 ^ 128 →
      (host.answer (.balance address)).1
        = (Word.ofNat (min Delta.maxValue (min Delta.maxValue (host.store.funds address)
            + netChange host.stack.diffs address)).toNat).toList ∧
      ((host.answer (.balance address)).1 = (Word.ofNat (host.due address).toNat).toList ↔
        (host.store.funds address ≤ Delta.maxValue ∧ host.due address ≤ Delta.maxValue) ∨
          host.due address = 0)) := by
  have current := CallStack.current?_of_live live
  constructor
  · intro unknown untouched
    simp only [answer, balance, visibleBalance_of_unknown unknown untouched]
  · intro known within lower upper
    have bounds := within host.stack.diffs (List.prefix_refl _)
    have positive := host.store.funds_nonneg address
    have told : (host.answer (.balance address)).1
        = (Word.ofNat (min Delta.maxValue (min Delta.maxValue (host.store.funds address)
            + netChange host.stack.diffs address)).toNat).toList := by
      simp only [answer, balance, visibleBalance_of_known known within, current]
    refine ⟨told, ?_⟩
    rw [due] at lower upper ⊢
    rw [told, ← FixedBytes.ext_iff, Word.ofNat_inj]
    all_goals
      simp only [Delta.minValue, Delta.maxValue] at *
      omega

/-- A call that has just started over a store with one account. -/
def hoarding (balance : ℕ) : Host :=
  let store := Store.empty.setBalance Address.zero (BitVec.ofNat 128 balance)
  ({ store } : Host).enter selfCall

/-- As long as no frame has changed anything, nothing can leave the range of amounts. -/
lemma hoarding_inRange (balance : ℕ) (address : Address) :
    (hoarding balance).InRange address ∧ netChange (hoarding balance).stack.diffs address = 0 := by
  have unlisted : ∀ diff ∈ (hoarding balance).stack.diffs, diff.balances[address]? = none := by
    change ∀ diff ∈ [FrameDiff.empty], _
    simp [FrameDiff.empty]
  refine ⟨fun newer start => ?_, netChange_of_unlisted unlisted⟩
  rw [netChange_of_unlisted fun diff member => unlisted diff (start.subset member)]
  decide

/-- The largest balance that is answered as it is. -/
theorem largest_balance_reported :
    ((hoarding (2 ^ 127 - 1)).answer (.balance Address.zero)).1
      = (Word.ofNat (2 ^ 127 - 1)).toList := by
  obtain ⟨within, still⟩ := hoarding_inRange (2 ^ 127 - 1) Address.zero
  have funds : (hoarding (2 ^ 127 - 1)).store.funds Address.zero = 2 ^ 127 - 1 := by decide +kernel
  have due : (hoarding (2 ^ 127 - 1)).due Address.zero = 2 ^ 127 - 1 := by
    rw [Host.due, funds, still, add_zero]
  have live : (hoarding (2 ^ 127 - 1)).stack.frames = [{ message := selfCall }] := rfl
  have known : (hoarding (2 ^ 127 - 1)).store.contains Address.zero = true := by decide +kernel
  have spec := ((balance_answer live Address.zero).2 (.inl known) within
    (by rw [due]; decide) (by rw [due]; decide)).2
  rw [funds, due] at spec
  exact spec.2 (.inl (by decide))

/-- A balance of 2 ^ 127 is answered as one less, although nothing has changed it. -/
theorem hoard_misreported :
    (hoarding (2 ^ 127)).store.contains Address.zero = true ∧
    (hoarding (2 ^ 127)).InRange Address.zero ∧
    (hoarding (2 ^ 127)).due Address.zero = 2 ^ 127 ∧
    ((hoarding (2 ^ 127)).answer (.balance Address.zero)).1
      = (Word.ofNat (2 ^ 127 - 1)).toList ∧
    ((hoarding (2 ^ 127)).answer (.balance Address.zero)).1
      ≠ (Word.ofNat (2 ^ 127)).toList := by
  obtain ⟨within, still⟩ := hoarding_inRange (2 ^ 127) Address.zero
  have run : (hoarding (2 ^ 127)).store.contains Address.zero = true ∧
      (hoarding (2 ^ 127)).store.funds Address.zero = 2 ^ 127 ∧
      ((hoarding (2 ^ 127)).answer (.balance Address.zero)).1
        = (Word.ofNat (2 ^ 127 - 1)).toList ∧
      ((hoarding (2 ^ 127)).answer (.balance Address.zero)).1
        ≠ (Word.ofNat (2 ^ 127)).toList := by
    decide +kernel
  obtain ⟨known, funds, told⟩ := run
  exact ⟨known, within, by rw [due, funds, still, add_zero], told⟩

end Host

end ContractHost
