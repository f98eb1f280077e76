import ContractHost.Machine.Engine
import ContractHost.Proofs.Balance

/-!
# Money is conserved

During an execution over a store whose money fits into an amount, every balance that an engine can
see is what the store has for the account, plus what the account inherited, minus what it forfeited
by its own destruction.  Only first destructions count, and those that were undone do not.

* `Settled` — what this says about a host at one moment, with all its consequences: every frame
  moves money and makes none, no balance leaves the range between zero and the total, the visible
  balances add up to the total, and no sum saturates (`Host.Unsaturated`).
* **`execute_balances`** — every moment of every execution, and the diff that is returned.
-/

namespace ContractHost

variable {σ : Type}

/-! ## Sums along the frames -/

/-- Adding the amounts one after the other never saturates. -/
def Delta.SumsExactly : Delta → List Delta → Prop
  | _, [] => True
  | sum, amount :: amounts => sum.Exact amount ∧ SumsExactly (sum.add amount) amounts

section Conserves

variable {start : Store} {diffs below : List FrameDiff} {registry : Registry}

/-- The walk along the frames, from a sum of what newer frames hold. -/
lemma Balanced.walk (bounded : start.total ≤ Delta.maxValue)
    (balanced : Balanced start diffs registry) (address : Address) {later : Registry}
    (distinct : (registry ++ later).subjects.Nodup) {sum : Delta}
    (held : sum.val = later.movement start address) :
    Delta.SumsExactly sum (diffs.filterMap fun diff => diff.balances[address]?) ∧
      ((diffs.filterMap fun diff => diff.balances[address]?).foldl Delta.add sum).val
        = Registry.movement start (registry ++ later) address := by
  induction balanced generalizing later sum with
  | root => exact ⟨trivial, held⟩
  | @frame diff below older newer rest moved _ _ ih =>
      rw [List.append_assoc] at distinct ⊢
      have total := Registry.movement_append start (nodup_right distinct) address
      have bounds := Registry.abs_movement_le start (nodup_right distinct) address
      cases listed : diff.balances[address]? with
      | none =>
          have nothing := FrameDiff.delta_of_unlisted listed
          rw [moved] at nothing
          simp only [List.filterMap_cons, listed]
          exact ih distinct (by rw [held, total, nothing, zero_add])
      | some amount =>
          have amount_eq := moved address
          rw [FrameDiff.delta_of_listed listed] at amount_eq
          have sum_eq : sum.val + amount.val
              = Registry.movement start (newer ++ later) address := by
            rw [held, amount_eq, total, add_comm]
          have step : sum.Exact amount :=
            exact_of_total bounded (sum_eq ▸ bounds.1) (sum_eq ▸ bounds.2)
          simp only [List.filterMap_cons, listed]
          obtain ⟨exact', reached⟩ := ih distinct (step.trans sum_eq)
          exact ⟨⟨step, exact'⟩, reached⟩

lemma Balanced.sum_delta (balanced : Balanced start diffs registry)
    (distinct : registry.subjects.Nodup) (address : Address) :
    (diffs.map fun diff => (diff.delta address).val).sum = registry.movement start address := by
  induction balanced with
  | root => rfl
  | frame rest moved _ _ ih =>
      rw [List.map_cons, List.sum_cons, ih (nodup_left distinct), moved,
        Registry.movement_append start distinct, add_comm]

/-- A frame moves money and makes none. -/
lemma Balanced.total_eq_zero (balanced : Balanced start diffs registry)
    (distinct : registry.subjects.Nodup) : ∀ diff ∈ diffs, diff.total = 0 := by
  induction balanced with
  | root => simp
  | frame rest moved _ _ ih =>
      rw [List.forall_mem_cons]
      refine ⟨?_, ih (nodup_left distinct)⟩
      rw [FrameDiff.total_eq, Finset.sum_congr rfl fun address _ => moved address]
      exact Registry.sum_movement start (nodup_right distinct)

end Conserves

/-! ## One moment -/

/-- No sum that a host may have to make next saturates. -/
structure Host.Unsaturated (host : Host) : Prop where
  /-- The money of an account in the store fits into an amount, and so does its opposite. -/
  estate : ∀ address, (host.estate address).val = host.store.funds address ∧
    (host.estate address).neg.val = -host.store.funds address
  /-- The sum along the frames. -/
  walk : ∀ address : Address, Delta.SumsExactly Delta.zero
    (host.stack.frames.filterMap fun frame => frame.diff.balances[address]?)
  /-- The sum that is a visible balance. -/
  visible : ∀ address, (host.estate address).Exact (host.stack.balanceDelta address)
  /-- The two credits of a first destruction. -/
  credit : ∀ frame below, host.stack.frames = frame :: below → ∀ subject heir,
    host.stack.isDestroyed subject = false →
    (frame.diff.delta heir).Exact (host.estate subject) ∧
    ((frame.diff.credit heir (host.estate subject)).delta subject).Exact (host.estate subject).neg
  /-- The merging of the frame on top into the one below. -/
  merge : ∀ child parent below, host.stack.frames = child :: parent :: below →
    ∀ address, (parent.diff.delta address).Exact (child.diff.delta address)

/-- The balances at a moment of an execution over a store, if the registry lists the first
destructions that are in force. -/
structure Settled (start : Store) (registry : Registry) (host : Host) : Prop where
  /-- The registered accounts are those that are destroyed in some frame. -/
  destroyed : ∀ address, host.stack.isDestroyed address = true ↔ address ∈ registry.subjects
  /-- The frames give an account what it inherited, and take what it forfeited. -/
  moved : ∀ address, (host.stack.diffs.map fun diff => (diff.delta address).val).sum
    = registry.inherited start address - registry.forfeited start address
  /-- No frame makes money. -/
  even : ∀ diff ∈ host.stack.diffs, diff.total = 0
  /-- What is read is the sum along the frames over what the store had. -/
  seen : ∀ address, ((host.visibleBalance address).getD 0 : ℤ)
    = start.funds address + (host.stack.diffs.map fun diff => (diff.delta address).val).sum
  /-- Every balance stays between zero and the total. -/
  bounds : ∀ address,
    0 ≤ start.funds address + (host.stack.diffs.map fun diff => (diff.delta address).val).sum ∧
    start.funds address + (host.stack.diffs.map fun diff => (diff.delta address).val).sum
      ≤ start.total
  /-- The visible balances add up to the total. -/
  total : ∑ address, ((host.visibleBalance address).getD 0 : ℤ) = start.total
  /-- No sum saturates. -/
  unsaturated : host.Unsaturated

section Moment

variable {start : Store} {host : Host} {registry : Registry}

lemma Store.Extends.funds_eq (grown : host.store.Extends start) (address : Address) :
    host.store.funds address = start.funds address := by
  rw [Store.funds, Store.funds, grown.balance_eq]

/-- The sum along the frames is what the registry says. -/
lemma Conserves.balanceDelta (bounded : start.total ≤ Delta.maxValue)
    (holds : Conserves start host.stack.diffs registry) (address : Address) :
    Delta.SumsExactly Delta.zero
        (host.stack.frames.filterMap fun frame => frame.diff.balances[address]?) ∧
      (host.stack.balanceDelta address).val = registry.movement start address := by
  have distinct : (Registry.subjects (registry ++ [])).Nodup := by
    rw [List.append_nil]
    exact holds.distinct
  have nothing : Delta.zero.val = Registry.movement start [] address := rfl
  have walk := holds.balanced.walk bounded address distinct nothing
  rw [CallStack.diffs, List.filterMap_map, List.append_nil] at walk
  exact walk

/-- The clamps of a visible balance do nothing. -/
lemma Conserves.visibleBalance (bounded : start.total ≤ Delta.maxValue)
    (grown : host.store.Extends start) (holds : Conserves start host.stack.diffs registry)
    (address : Address) :
    (host.estate address).Exact (host.stack.balanceDelta address) ∧
      ((host.visibleBalance address).getD 0 : ℤ)
        = start.funds address + registry.movement start address := by
  obtain ⟨walk, delta⟩ := holds.balanceDelta bounded address
  have estate := estate_val bounded grown address
  obtain ⟨lower, upper⟩ := Registry.movement_bounds start holds.distinct address
  have exact' : (host.estate address).Exact (host.stack.balanceDelta address) := by
    refine exact_of_total bounded ?_ ?_
    · rw [estate, delta]
      have total := Registry.funds_le_total start address
      have positive := start.funds_nonneg address
      omega
    · rw [estate, delta]
      exact upper
  refine ⟨exact', ?_⟩
  rw [Host.visibleBalance]
  split_ifs with unseen
  · -- an account that is neither known nor touched has no money, and none was moved
    rw [Bool.and_eq_true, Option.isNone_iff_eq_none, Bool.not_eq_true'] at unseen
    have funds := grown.funds_eq address
    rw [Store.funds, unseen.1] at funds
    have untouched : host.stack.frames.filterMap (fun frame => frame.diff.balances[address]?)
        = [] := by
      rw [List.filterMap_eq_nil_iff]
      intro frame member
      have untouched := unseen.2
      rw [CallStack.touches, List.any_eq_false] at untouched
      have unlisted := untouched frame member
      rw [FrameDiff.touches, Bool.or_eq_true, not_or, Bool.not_eq_true, Bool.not_eq_true]
        at unlisted
      exact Std.ExtTreeMap.getElem?_eq_none_of_contains_eq_false unlisted.2
    rw [CallStack.balanceDelta, untouched] at delta
    rw [← funds, ← delta]
    rfl
  · change (((host.estate address).add (host.stack.balanceDelta address)).val.toNat : ℤ) = _
    rw [exact', estate, delta]
    exact Int.toNat_of_nonneg lower

/-- Diffs that conserve money settle all balances. -/
theorem Conserves.settled (bounded : start.total ≤ Delta.maxValue)
    (grown : host.store.Extends start) (holds : Conserves start host.stack.diffs registry) :
    Settled start registry host := by
  have sums := fun address => holds.balanced.sum_delta holds.distinct address
  have visible := holds.visibleBalance bounded grown
  refine ⟨isDestroyed_iff holds.balanced, sums, holds.balanced.total_eq_zero holds.distinct,
    ?_, ?_, ?_, ?_⟩
  · intro address
    rw [sums]
    exact (visible address).2
  · intro address
    rw [sums]
    exact Registry.movement_bounds start holds.distinct address
  · rw [Finset.sum_congr rfl fun address _ => (visible address).2, Finset.sum_add_distrib,
      Registry.sum_movement start holds.distinct, add_zero, start.total_eq]
  · refine ⟨?_, fun address => (holds.balanceDelta bounded address).1,
      fun address => (visible address).1, ?_, ?_⟩
    · intro address
      rw [grown.funds_eq]
      exact ⟨estate_val bounded grown address, neg_estate_val bounded grown address⟩
    · intro frame below frames subject heir spared
      have first : subject ∉ registry.subjects := by
        rw [← isDestroyed_iff holds.balanced, spared]
        exact Bool.false_ne_true
      rw [CallStack.diffs, frames, List.map_cons] at holds
      exact holds.credit_exact bounded grown first heir
    · intro child parent below frames address
      rw [CallStack.diffs, frames, List.map_cons, List.map_cons] at holds
      exact holds.merge_exact bounded address

end Moment

/-! ## Whole executions -/

namespace Registry

/-- The destructions in force when an event has just happened, after the first moments of an
execution. -/
def upon (before : List Moment) (event : Event) : Registry :=
  ((Journal.mk [] []).replay update before).seen update event

/-- The destructions in force after all moments of an execution. -/
def after (moments : List Moment) : Registry := ((Journal.mk [] []).replay update moments).current

end Registry

lemma conserves_nil (start : Store) : Conserves start [] [] := ⟨List.nodup_nil, .root⟩

/-- **Money is conserved at every moment of every execution.**  Let a registry list each destroyed
account with the heir that its first destruction named, and be put back whenever a nested call that
reached an engine ends without success.  Then at every moment the host is settled according to the
registry, and so are the changes that the execution returns: together they move nothing. -/
theorem execute_balances (engine : Engine σ) (state : σ) (store : Store) (txContext : TxContext)
    (settings : Settings) (blockHashes : Std.ExtTreeMap Int64 Word) (message : CallMessage)
    (input : Bytes) (bounded : store.total ≤ Delta.maxValue) :
    let run := execute engine Observer.recorder state
      ⟨{ store, txContext, settings, blockHashes }, []⟩ message input
    (∀ before moment after, run.2.2.notes = before ++ moment :: after →
      Settled store (Registry.upon before moment.event) moment.host) ∧
    ∀ execution, run.1 = .ok execution →
      execution.diff.total = 0 ∧
      ∀ address, (execution.diff.delta address).val
        = (Registry.after run.2.2.notes).inherited store address
          - (Registry.after run.2.2.notes).forfeited store address := by
  intro run
  have idle : ({ store, txContext, settings, blockHashes } : Host).stack.frames = [] := rfl
  obtain ⟨along, returned⟩ := execute_tracks (tracks_balances bounded) engine state idle
    (Store.Extends.refl store) (conserves_nil store) message input
  constructor
  · intro before moment after shown
    change Journal.Along _ _ _ run.2.2.notes at along
    rw [shown] at along
    have faithful := along.at_split
    exact faithful.agrees_seen.settled bounded faithful.grown
  · intro execution answered
    obtain ⟨distinct, balanced⟩ := returned execution answered
    refine ⟨balanced.total_eq_zero distinct _ List.mem_cons_self, fun address => ?_⟩
    have sum := balanced.sum_delta distinct address
    rw [List.map_cons, List.map_nil, List.sum_cons, List.sum_nil, add_zero] at sum
    exact sum

/-- A store with one account, which owns five units and whose code destroys it in favour of the
account one. -/
def heirloom : Store := (Store.empty.setBalance Address.zero 5).deploy Address.zero [0x60, 1, 0xff]

/-- The machine runs that code in three moments.  It sees five units at each of them, and returns a
diff that moves money and makes none. -/
theorem heirloom_conserved :
    heirloom.total ≤ Delta.maxValue ∧
    let run := execute Machine.engine Observer.recorder () ⟨{ store := heirloom }, []⟩
      (CallMessage.plain Address.zero Address.zero 100) []
    run.2.2.notes.length = 3 ∧
    (∀ before moment after, run.2.2.notes = before ++ moment :: after →
      ∑ address, ((moment.host.visibleBalance address).getD 0 : ℤ) = 5) ∧
    ∃ execution, run.1 = .ok execution ∧ execution.diff.total = 0 := by
  have total : heirloom.total = 5 := by decide +kernel
  have bounded : heirloom.total ≤ Delta.maxValue := by
    rw [total]
    decide
  have ran : (execute Machine.engine Observer.recorder () ⟨{ store := heirloom }, []⟩
        (CallMessage.plain Address.zero Address.zero 100) []).2.2.notes.length = 3 ∧
      (execute Machine.engine Observer.recorder () ⟨{ store := heirloom }, []⟩
        (CallMessage.plain Address.zero Address.zero 100) []).1.isOk = true := by
    decide +kernel
  have spec := execute_balances Machine.engine () heirloom {} {} ∅
    (CallMessage.plain Address.zero Address.zero 100) [] bounded
  refine ⟨bounded, ?_⟩
  -- the run itself need not be looked at again
  generalize execute Machine.engine _ _ _ _ _ = run at ran spec ⊢
  obtain ⟨answer, state, world⟩ := run
  refine ⟨ran.1, fun before moment after shown => ?_, ?_⟩
  · rw [← total]
    exact (spec.1 before moment after shown).total
  · cases answer with
    | error fault => exact absurd ran.2 (by simp [Except.isOk, Except.toBool])
    | ok execution => exact ⟨execution, rfl, (spec.2 execution rfl).1⟩

end ContractHost
