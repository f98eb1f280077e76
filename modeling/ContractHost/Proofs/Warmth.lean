import ContractHost.Proofs.Accrual
import ContractHost.Proofs.NestedCall

/-!
# Cold at first, warm afterwards

An account or a slot is cold until it is accessed and warm from then on, in all frames; but when a
nested call ends without success, what became warm in it is cold again.  A host looks for an access
in every live frame and records it in the frame on top only.  This comes to one set of accounts and
one set of slots, each with accesses of its own: an access to an account never makes a slot warm, or
the other way round.

* `accessed` — the set after some moments; a journal saves it and puts it back.
* `accrual_accounts` and `accrual_slots` — the frames together have these sets.
* **`execute_accesses`** — every access of every run, and the sets of a returned diff.
-/

namespace ContractHost

variable {σ : Type}

/-! ## The sets -/

/-- The account that a question makes warm. -/
def Query.accessedAccount? : Query → Option Address
  | .accessAccount address => some address
  | _ => none

/-- The slot that a question makes warm. -/
def Query.accessedSlot? : Query → Option SlotKey
  | .accessSlot address key => some ⟨address, key⟩
  | _ => none

/-- No access is to an account and to a slot. -/
lemma Query.accessed_apart (query : Query) :
    query.accessedAccount? = none ∨ query.accessedSlot? = none := by
  cases query with
  | accessAccount address => exact .inr rfl
  | _ => exact .inl rfl

/-- What is warm after the first moments of an execution, of the things that some of its questions
make warm. -/
def accessed {κ : Type} [Ord κ] [Std.TransOrd κ] (entryOf : Query → Option κ)
    (moments : List Moment) : Std.ExtTreeSet κ :=
  ((Journal.mk ∅ []).replay (enlist entryOf) moments).current

/-- The event tells of an access to a thing of this kind. -/
def Event.Accesses {κ : Type} (entryOf : Query → Option κ) : Event → Bool
  | .answered query _ => (entryOf query).isSome
  | _ => false

/-- Accesses to things of another kind may be left out. -/
lemma accessed_filter {κ μ : Type} [Ord κ] [Std.TransOrd κ] {entryOf : Query → Option κ}
    {otherOf : Query → Option μ}
    (apart : ∀ query, entryOf query = none ∨ otherOf query = none) (moments : List Moment) :
    accessed entryOf (moments.filter fun moment => !moment.event.Accesses otherOf)
      = accessed entryOf moments := by
  have replayed (journal : Journal (Std.ExtTreeSet κ)) :
      journal.replay (enlist entryOf)
          (moments.filter fun moment => !moment.event.Accesses otherOf)
        = journal.replay (enlist entryOf) moments := by
    induction moments generalizing journal with
    | nil => rfl
    | cons moment moments ih =>
        cases other : moment.event.Accesses otherOf with
        | false =>
            rw [List.filter_cons_of_pos (by simp [other]), Journal.replay_cons,
              Journal.replay_cons, ih]
        | true =>
            rw [List.filter_cons_of_neg (by simp [other]), Journal.replay_cons, ih]
            -- such an event is an answer that enters nothing
            obtain ⟨host, event⟩ := moment
            cases event with
            | answered query answer =>
                have entered : ¬ otherOf query = none := by
                  simpa [Event.Accesses, ← Option.isSome_iff_ne_none] using other
                simp only [Journal.step, enlist, (apart query).resolve_right entered]
            | started | ended | calling | replied => simp [Event.Accesses] at other
  exact congrArg Journal.current (replayed _)

/-! ## The frames -/

/-- Of the accesses in a diff, a question records its own. -/
lemma Query.record_warm (query : Query) (host : Host) (diff : FrameDiff) :
    (query.record host diff).warmAccounts = enlist accessedAccount? query diff.warmAccounts ∧
      (query.record host diff).warmSlots = enlist accessedSlot? query diff.warmSlots := by
  cases query with
  | destroy address beneficiary =>
      simp only [record]
      split_ifs <;> exact ⟨rfl, rfl⟩
  | log address data topics =>
      simp only [record]
      split <;> exact ⟨rfl, rfl⟩
  | accountExists | accessAccount | accessSlot | slot | setSlot | balance | codeSize | codeHash
  | code | txContext | blockHash => exact ⟨rfl, rfl⟩

lemma accrual_accounts :
    Accrual (enlist Query.accessedAccount?) (· ∪ ·) FrameDiff.warmAccounts :=
  .of_sets rfl (fun host query diff => (query.record_warm host diff).1) fun _ _ => rfl

lemma accrual_slots : Accrual (enlist Query.accessedSlot?) (· ∪ ·) FrameDiff.warmSlots :=
  .of_sets rfl (fun host query diff => (query.record_warm host diff).2) fun _ _ => rfl

namespace CallStack

lemma isWarmAccount_iff (stack : CallStack) (address : Address) :
    stack.isWarmAccount address = true
      ↔ address ∈ joined (· ∪ ·) FrameDiff.warmAccounts stack.diffs := by
  rw [joined_iff (fun set => address ∈ set) (by simp) (by simp), isWarmAccount,
    stack.any_frames_iff fun diff => diff.warmAccounts.contains address]
  simp only [Std.ExtTreeSet.contains_iff_mem]

lemma isWarmSlot_iff (stack : CallStack) (address : Address) (key : Word) :
    stack.isWarmSlot address key = true
      ↔ ⟨address, key⟩ ∈ joined (· ∪ ·) FrameDiff.warmSlots stack.diffs := by
  rw [joined_iff (fun set => (⟨address, key⟩ : SlotKey) ∈ set) (by simp) (by simp),
    isWarmSlot, stack.any_frames_iff fun diff => diff.warmSlots.contains ⟨address, key⟩]
  simp only [Std.ExtTreeSet.contains_iff_mem]

end CallStack

lemma Host.accessStatus_eq_warm {wasWarm : Bool} :
    accessStatus wasWarm = .warm ↔ wasWarm = true := by
  cases wasWarm <;> simp [accessStatus]

/-! ## Executions -/

/-- **Accesses are one set of accounts and one set of slots.**  Let both start empty, let every
access add to its own, and let both be put back to what they were whenever a nested call that
reached an engine ends without success.  Then an access is answered warm exactly if the account or
the slot was in its set right before, and the returned diff has exactly the final sets.  Neither set
depends on the accesses that the other is made of. -/
theorem execute_accesses (engine : Engine σ) (state : σ) (store : Store) (txContext : TxContext)
    (settings : Settings) (blockHashes : Std.ExtTreeMap Int64 Word) (message : CallMessage)
    (input : Bytes) :
    let run := execute engine Observer.recorder state
      ⟨{ store, txContext, settings, blockHashes }, []⟩ message input
    (∀ before later after address status,
      run.2.2.notes = before ++ ⟨later, .answered (.accessAccount address) status⟩ :: after →
      (status = .warm ↔ address ∈ accessed Query.accessedAccount? before)) ∧
    (∀ before later after address key status,
      run.2.2.notes = before ++ ⟨later, .answered (.accessSlot address key) status⟩ :: after →
      (status = .warm ↔ ⟨address, key⟩ ∈ accessed Query.accessedSlot? before)) ∧
    (∀ moments : List Moment,
      accessed Query.accessedAccount?
          (moments.filter fun moment => !moment.event.Accesses Query.accessedSlot?)
        = accessed Query.accessedAccount? moments ∧
      accessed Query.accessedSlot?
          (moments.filter fun moment => !moment.event.Accesses Query.accessedAccount?)
        = accessed Query.accessedSlot? moments) ∧
    ∀ execution, run.1 = .ok execution →
      execution.diff.warmAccounts = accessed Query.accessedAccount? run.2.2.notes ∧
      execution.diff.warmSlots = accessed Query.accessedSlot? run.2.2.notes := by
  intro run
  have idle : ({ store, txContext, settings, blockHashes } : Host).stack.frames = [] := rfl
  obtain ⟨accounts, finalAccounts⟩ := accrual_accounts.execute engine state idle message input
  obtain ⟨slots, finalSlots⟩ := accrual_slots.execute engine state idle message input
  have apart (moments : List Moment) := And.intro
    (accessed_filter Query.accessed_apart moments)
    (accessed_filter (fun query => query.accessed_apart.symm) moments)
  refine ⟨?_, ?_, apart, fun execution answered =>
    ⟨finalAccounts execution answered, finalSlots execution answered⟩⟩
  · intro before later after address status shown
    obtain ⟨asked, -, -, -, answered, known⟩ := accounts _ _ _ _ _ shown
    have told : status = Host.accessStatus (asked.stack.isWarmAccount address) :=
      (congrArg Prod.fst answered).symm
    rw [told, Host.accessStatus_eq_warm, CallStack.isWarmAccount_iff, known]
    rfl
  · intro before later after address key status shown
    obtain ⟨asked, -, -, -, answered, known⟩ := slots _ _ _ _ _ shown
    have told : status = Host.accessStatus (asked.stack.isWarmSlot address key) :=
      (congrArg Prod.fst answered).symm
    rw [told, Host.accessStatus_eq_warm, CallStack.isWarmSlot_iff, known]
    rfl

/-- Accesses an account, and calls itself to access a slot of it, which is undone. -/
def Engine.probing : Engine Bool where
  name := "probing"
  version := "1"
  start nested _ _ _ :=
    if nested then .ask (.accessSlot Address.zero Word.zero) fun _ =>
      .finish true (Result.revert 0).encode
    else .ask (.accessAccount Address.zero) fun _ =>
      .call true selfCall.encode.toList fun _ _ => .finish false (Result.success 0).encode

/-- The account stays warm, and the slot is cold again. -/
theorem probing_accesses :
    let run := execute Engine.probing Observer.recorder false ⟨{ store := .empty }, []⟩ selfCall []
    ∃ execution, run.1 = .ok execution ∧
      Address.zero ∈ execution.diff.warmAccounts ∧ execution.diff.warmSlots = ∅ := by
  have ran : (execute Engine.probing Observer.recorder false ⟨{ store := .empty }, []⟩ selfCall
        []).1.isOk = true ∧
      Address.zero ∈ accessed Query.accessedAccount? (execute Engine.probing Observer.recorder
        false ⟨{ store := .empty }, []⟩ selfCall []).2.2.notes ∧
      accessed Query.accessedSlot? (execute Engine.probing Observer.recorder
        false ⟨{ store := .empty }, []⟩ selfCall []).2.2.notes = ∅ := by
    decide +kernel
  have spec := execute_accesses Engine.probing false .empty {} {} ∅ selfCall []
  -- the run itself need not be looked at again
  generalize execute Engine.probing _ _ _ _ _ = run at ran spec ⊢
  obtain ⟨answer, state, world⟩ := run
  obtain ⟨-, -, -, final⟩ := spec
  cases answer with
  | error fault => simp [Except.isOk, Except.toBool] at ran
  | ok execution =>
      obtain ⟨accounts, slots⟩ := final execution rfl
      refine ⟨execution, rfl, ?_, slots.trans ran.2.2⟩
      rw [accounts]
      exact ran.2.1

end ContractHost
