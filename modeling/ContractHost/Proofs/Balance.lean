import ContractHost.Proofs.Journal
import ContractHost.Proofs.Registry

/-!
# Frames hold the movements of a registry

The diffs of the frames cut the registry into parts, the oldest part for the root: each frame
holds the movements of the destructions that were first registered in it, or in a call that was
merged into it.  A repeated destruction leaves a mark in another frame, but moves nothing.

* `Balanced` — this correspondence; `Conserves` adds that no account is registered twice.
* **`tracks_balances`** — it survives everything a host does, if the store has no more money than
  an amount can hold.  Every sum that is made on the way is exact: see `Conserves.credit_exact` for
  a first destruction and `Conserves.merge_exact` for a merge.
-/

namespace ContractHost

/-! ## The invariant -/

/-- Each diff holds the movements of its part of the registry. -/
inductive Balanced (start : Store) : List FrameDiff → Registry → Prop where
  | root : Balanced start [] []
  | frame {diff : FrameDiff} {below : List FrameDiff} {older newer : Registry}
      (rest : Balanced start below older)
      (moved : ∀ address, (diff.delta address).val = newer.movement start address)
      (marked : ∀ address ∈ newer.subjects, diff.destroyed.contains address = true)
      (known : ∀ address, diff.destroyed.contains address = true →
        address ∈ Registry.subjects (older ++ newer)) :
      Balanced start (diff :: below) (older ++ newer)

/-- The diffs hold the movements of a registry that names no account twice. -/
structure Conserves (start : Store) (diffs : List FrameDiff) (registry : Registry) : Prop where
  distinct : registry.subjects.Nodup
  balanced : Balanced start diffs registry

section Conserves

variable {start : Store} {diff child parent : FrameDiff} {diffs below : List FrameDiff}
  {registry older newer : Registry}

/-- Exactly the registered accounts are destroyed in some diff. -/
lemma Balanced.destroyed_iff (balanced : Balanced start diffs registry) (address : Address) :
    (∃ diff ∈ diffs, diff.destroyed.contains address = true) ↔ address ∈ registry.subjects := by
  induction balanced with
  | root => simp
  | frame rest moved marked known ih =>
      simp only [List.mem_cons, exists_eq_or_imp, ih]
      constructor
      · rintro (here | below)
        · exact known address here
        · rw [Registry.subjects_append]
          exact List.mem_append_left _ below
      · rw [Registry.subjects_append, List.mem_append]
        rintro (old | new)
        · exact Or.inr old
        · exact Or.inl (marked address new)

lemma isDestroyed_iff {host : Host} (balanced : Balanced start host.stack.diffs registry)
    (address : Address) :
    host.stack.isDestroyed address = true ↔ address ∈ registry.subjects := by
  rw [← balanced.destroyed_iff, CallStack.isDestroyed_iff]

/-! ## Exact sums -/

lemma nodup_left (distinct : (older ++ newer).subjects.Nodup) : older.subjects.Nodup := by
  rw [Registry.subjects_append] at distinct
  exact distinct.of_append_left

lemma nodup_right (distinct : (older ++ newer).subjects.Nodup) : newer.subjects.Nodup := by
  rw [Registry.subjects_append] at distinct
  exact distinct.of_append_right

/-- An amount that is no larger than the total, in either direction, is no change that saturates. -/
lemma exact_of_total (bounded : start.total ≤ Delta.maxValue) {a b : Delta}
    (lower : -start.total ≤ a.val + b.val) (upper : a.val + b.val ≤ start.total) : a.Exact b := by
  refine Delta.exact_of_bounds ?_ (upper.trans bounded)
  simp only [Delta.minValue, Delta.maxValue] at *
  omega

/-- Movements of two parts of a registry add up exactly. -/
lemma exact_of_movements (bounded : start.total ≤ Delta.maxValue)
    (distinct : (older ++ newer).subjects.Nodup) {address : Address} {a b : Delta}
    (old : a.val = older.movement start address) (new : b.val = newer.movement start address) :
    a.Exact b := by
  have bounds := Registry.abs_movement_le start distinct address
  rw [Registry.movement_append start distinct, ← old, ← new] at bounds
  exact exact_of_total bounded bounds.1 bounds.2

/-- The money of an account fits into an amount. -/
lemma estate_val (bounded : start.total ≤ Delta.maxValue) {host : Host}
    (grown : host.store.Extends start) (address : Address) :
    (host.estate address).val = start.funds address := by
  have positive := start.funds_nonneg address
  have share := Registry.funds_le_total start address
  rw [Host.estate, grown.balance_eq]
  refine Delta.ofInt_val ?_ (share.trans bounded)
  exact le_trans (by simp [Delta.minValue]) positive

lemma neg_estate_val (bounded : start.total ≤ Delta.maxValue) {host : Host}
    (grown : host.store.Extends start) (address : Address) :
    (host.estate address).neg.val = -start.funds address := by
  have positive := start.funds_nonneg address
  have share := Registry.funds_le_total start address
  rw [Delta.neg, estate_val bounded grown]
  refine Delta.ofInt_val ?_ ?_
  · simp only [Delta.minValue, Delta.maxValue] at *
    omega
  · simp only [Delta.maxValue] at *
    omega

/-- **Merging two neighbouring frames is exact.** -/
theorem Conserves.merge_exact (bounded : start.total ≤ Delta.maxValue)
    (holds : Conserves start (child :: parent :: below) registry) (address : Address) :
    (parent.delta address).Exact (child.delta address) := by
  obtain ⟨distinct, balanced⟩ := holds
  cases balanced with
  | @frame _ _ lower newer rest moved _ _ =>
      cases rest with
      | @frame _ _ older middle _ movedParent _ _ =>
          rw [List.append_assoc] at distinct
          exact exact_of_movements bounded (nodup_right distinct) (movedParent address)
            (moved address)

/-- **Both credits of a first destruction are exact.** -/
theorem Conserves.credit_exact (bounded : start.total ≤ Delta.maxValue) {host : Host}
    (grown : host.store.Extends start) (holds : Conserves start (diff :: below) registry)
    {subject : Address} (first : subject ∉ registry.subjects) (heir : Address) :
    (diff.delta heir).Exact (host.estate subject) ∧
      ((diff.credit heir (host.estate subject)).delta subject).Exact (host.estate subject).neg := by
  obtain ⟨distinct, balanced⟩ := holds
  cases balanced with
  | @frame _ _ older newer rest moved _ _ =>
      have distinct := nodup_right distinct
      rw [Registry.subjects_append, List.mem_append, not_or] at first
      have estate := estate_val bounded grown subject
      have debit := neg_estate_val bounded grown subject
      have positive := start.funds_nonneg subject
      have share := Registry.funds_le_total start subject
      -- what the heir has been given so far is the money of other accounts
      have apart := Registry.funds_add_inherited_le start distinct first.2 heir
      have bounds := Registry.abs_movement_le start distinct heir
      have loss := Registry.forfeited_nonneg start newer heir
      have credit : (diff.delta heir).Exact (host.estate subject) := by
        refine exact_of_total bounded ?_ ?_
        · rw [moved, estate]
          omega
        · rw [moved, estate, Registry.movement]
          omega
      refine ⟨credit, ?_⟩
      -- the account itself has forfeited nothing so far
      have gain := Registry.inherited_nonneg start newer subject
      have apart' := Registry.funds_add_inherited_le start distinct first.2 subject
      have spared : newer.forfeited start subject = 0 := if_neg first.2
      have held := FrameDiff.delta_credit_val credit subject
      rw [moved, Registry.movement, spared, estate] at held
      refine exact_of_total bounded ?_ ?_
      · rw [held, debit]
        split_ifs <;> omega
      · rw [held, debit]
        split_ifs <;> omega

/-! ## What a host does to the invariant -/

lemma Conserves.enter (holds : Conserves start below registry) :
    Conserves start ({} :: below) registry where
  distinct := holds.distinct
  balanced := by
    have top : Balanced start ({} :: below) (registry ++ []) :=
      .frame holds.balanced (fun _ => rfl) (by simp) (by simp)
    rwa [List.append_nil] at top

/-- Only balances and destructions matter. -/
lemma Conserves.of_same (holds : Conserves start (diff :: below) registry) {changed : FrameDiff}
    (balances : changed.balances = diff.balances) (destroyed : changed.destroyed = diff.destroyed) :
    Conserves start (changed :: below) registry where
  distinct := holds.distinct
  balanced := by
    have balanced := holds.balanced
    cases balanced with
    | frame rest moved marked known =>
        refine .frame rest ?_ (by rwa [destroyed]) (by rwa [destroyed])
        intro address
        rw [← moved address, FrameDiff.delta, balances]
        rfl

/-- A repeated destruction marks an account that is registered anyway. -/
lemma Conserves.destroy_again (holds : Conserves start (diff :: below) registry)
    {subject : Address} (again : subject ∈ registry.subjects) (heir : Address) :
    Conserves start (diff.destroy subject heir :: below) registry where
  distinct := holds.distinct
  balanced := by
    have balanced := holds.balanced
    cases balanced with
    | frame rest moved marked known =>
        refine .frame rest moved ?_ ?_
        · intro address new
          simp [FrameDiff.destroy, Std.ExtTreeMap.contains_insert, marked address new]
        · intro address mark
          simp only [FrameDiff.destroy, Std.ExtTreeMap.contains_insert, Bool.or_eq_true,
            beq_iff_eq, Std.compare_eq_iff_eq] at mark
          rcases mark with rfl | earlier
          · exact again
          · exact known address earlier

/-- A first destruction moves the money of the account to its heir. -/
lemma Conserves.destroy_first (bounded : start.total ≤ Delta.maxValue) {host : Host}
    (grown : host.store.Extends start) (holds : Conserves start (diff :: below) registry)
    {subject : Address} (first : subject ∉ registry.subjects) (heir : Address) :
    Conserves start
      (((diff.destroy subject heir).credit heir (host.estate subject)).credit subject
        (host.estate subject).neg :: below)
      (registry ++ [⟨subject, heir⟩]) := by
  obtain ⟨credit, debit⟩ := holds.credit_exact bounded grown first heir
  have distinct := Registry.nodup_register holds.distinct subject heir
  rw [Registry.register, if_neg first] at distinct
  refine ⟨distinct, ?_⟩
  obtain ⟨-, balanced⟩ := holds
  cases balanced with
  | @frame _ _ older newer rest moved marked known =>
      rw [List.append_assoc] at distinct ⊢
      refine .frame rest ?_ ?_ ?_
      · intro address
        have after := FrameDiff.delta_credit_val debit address
        rw [FrameDiff.delta_credit_val credit, moved, neg_estate_val bounded grown,
          estate_val bounded grown] at after
        rw [Registry.movement_append start (nodup_right distinct), Registry.movement_singleton]
        refine Eq.trans after ?_
        split_ifs <;> ring
      · intro address new
        rw [Registry.subjects_append, List.mem_append] at new
        simp only [FrameDiff.credit, FrameDiff.destroy, Std.ExtTreeMap.contains_insert,
          Bool.or_eq_true, beq_iff_eq, Std.compare_eq_iff_eq]
        rcases new with earlier | last
        · exact Or.inr (marked address earlier)
        · exact Or.inl (List.mem_singleton.1 last).symm
      · intro address mark
        simp only [FrameDiff.credit, FrameDiff.destroy, Std.ExtTreeMap.contains_insert,
          Bool.or_eq_true, beq_iff_eq, Std.compare_eq_iff_eq] at mark
        rw [← List.append_assoc, Registry.subjects_append, List.mem_append]
        rcases mark with rfl | earlier
        · exact Or.inr (by simp)
        · exact Or.inl (known address earlier)

/-- The part of a merged frame becomes the end of the part of its parent. -/
lemma Conserves.merge (bounded : start.total ≤ Delta.maxValue)
    (holds : Conserves start (child :: parent :: below) registry) :
    Conserves start (parent.merge child :: below) registry where
  distinct := holds.distinct
  balanced := by
    have exact' := holds.merge_exact bounded
    obtain ⟨distinct, balanced⟩ := holds
    cases balanced with
    | @frame _ _ lower newer rest moved marked known =>
        cases rest with
        | @frame _ _ older middle rest movedParent markedParent knownParent =>
            rw [List.append_assoc] at distinct ⊢
            refine .frame rest ?_ ?_ ?_
            · intro address
              rw [Registry.movement_append start (nodup_right distinct), ← movedParent, ← moved,
                FrameDiff.delta_merge]
              cases listed : child.balances[address]? with
              | some amount =>
                  have sum := exact' address
                  rwa [FrameDiff.delta_of_listed listed] at sum ⊢
              | none => rw [FrameDiff.delta_of_unlisted listed, add_zero]
            · intro address new
              rw [Registry.subjects_append, List.mem_append] at new
              rw [FrameDiff.merge, Std.ExtTreeMap.contains_union, Bool.or_eq_true]
              rcases new with mid | new
              · exact Or.inl (markedParent address mid)
              · exact Or.inr (marked address new)
            · intro address mark
              rw [FrameDiff.merge, Std.ExtTreeMap.contains_union, Bool.or_eq_true] at mark
              rw [← List.append_assoc]
              rcases mark with mid | new
              · rw [Registry.subjects_append, List.mem_append]
                exact Or.inl (knownParent address mid)
              · exact known address new

/-- No question but a destruction records anything about balances or destroyed accounts. -/
lemma Query.record_balances {query : Query} (host : Host) (diff : FrameDiff)
    (sparing : ∀ subject heir, query ≠ .destroy subject heir) :
    (query.record host diff).balances = diff.balances ∧
      (query.record host diff).destroyed = diff.destroyed := by
  cases query with
  | destroy subject heir => exact absurd rfl (sparing subject heir)
  | log address data topics =>
      simp only [record]
      split <;> exact ⟨rfl, rfl⟩
  | accountExists | accessAccount | accessSlot | slot | setSlot | balance | codeSize | codeHash
  | code | txContext | blockHash => exact ⟨rfl, rfl⟩

/-- **The frames of a host track the registry of first destructions.** -/
theorem tracks_balances (bounded : start.total ≤ Delta.maxValue) :
    Tracks start Registry.update (Conserves start) where
  enter := Conserves.enter
  merge := Conserves.merge bounded
  answer := by
    intro host diff below registry query frames grown holds
    by_cases destroying : ∃ subject heir, query = .destroy subject heir
    · obtain ⟨subject, heir, rfl⟩ := destroying
      have seen : host.stack.isDestroyed subject = true ↔ subject ∈ registry.subjects :=
        isDestroyed_iff (frames ▸ holds.balanced) subject
      rw [Registry.update, Registry.register, Query.record]
      split_ifs with marked known known
      · exact holds.destroy_again known heir
      · exact absurd (seen.1 marked) known
      · exact absurd (seen.2 known) marked
      · exact holds.destroy_first bounded grown known heir
    · push Not at destroying
      obtain ⟨balances, destroyed⟩ := query.record_balances host diff destroying
      have untouched : Registry.update query registry = registry := by
        cases query with
        | destroy subject heir => exact absurd rfl (destroying subject heir)
        | _ => rfl
      rw [untouched]
      exact holds.of_same balances destroyed

end Conserves

end ContractHost
