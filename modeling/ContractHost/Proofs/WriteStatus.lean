import ContractHost.Proofs.NestedCall
import ContractHost.Proofs.Retained
import ContractHost.Proofs.Storage

/-!
# What a write is said to have done

A write is answered by what it did to its slot, and two of the five answers depend on whether the
frame had written the slot before.  A host decides this by the diff of the frame on top, which
changes when nested calls are merged or lost.  In terms of the events alone it means: the slot was
written in this frame, or in a nested one that ended in success together with all in between
(`WroteBefore`).  So the first write of a nested call to a slot that its caller wrote is no second
one, but the next write of the caller is one if that call succeeded.

* `Classified` — the five answers, each with its condition.
* `recording_written` — the slots that a diff knows to be written are those that were retained.
* **`execute_write_status`** — every write of every run.
-/

namespace ContractHost

variable {σ : Type}

/-! ## Answers -/

/-- The answer to a write of `new` to a slot with the value `old`, if `again` says whether the slot
was written before. -/
structure Classified (old new : Word) (again : Prop) (status : StorageStatus) : Prop where
  deleted : status = .deleted ↔ new = Word.zero
  unchanged : status = .unchanged ↔ new ≠ Word.zero ∧ new = old
  added : status = .added ↔ new ≠ Word.zero ∧ new ≠ old ∧ old = Word.zero
  modifiedAgain : status = .modifiedAgain
    ↔ new ≠ Word.zero ∧ old ≠ Word.zero ∧ new ≠ old ∧ again
  modified : status = .modified ↔ new ≠ Word.zero ∧ old ≠ Word.zero ∧ new ≠ old ∧ ¬ again

lemma Word.isZero_iff {value : Word} : value.isZero = true ↔ value = Word.zero :=
  ⟨Word.eq_zero_of_isZero, fun same => same ▸ rfl⟩

/-- For an account that is not new, the answer depends on nothing else. -/
lemma Host.writeStatus_classified (old new : Word) (again : Bool) :
    Classified old new (again = true) (writeStatus old new false again) := by
  by_cases erased : new = Word.zero
  · constructor <;> simp [writeStatus, Word.isZero_iff, erased]
  · by_cases same : new = old
    · subst same
      constructor <;> simp [writeStatus, Word.isZero_iff, erased]
    · by_cases fresh : old = Word.zero
      · constructor <;> simp [writeStatus, Word.isZero_iff, erased, fresh]
      · constructor <;> cases again <;>
          simp [writeStatus, Word.isZero_iff, erased, same, fresh]

/-! ## Slots that a diff knows to be written -/

/-- The slot that a question writes. -/
def Query.written? : Query → Option SlotKey
  | .setSlot address key _ => some ⟨address, key⟩
  | _ => none

lemma StorageDiff.written_foldl_adopt (newer : StorageDiff) (keys : List Word)
    (diff : StorageDiff) (key : Word) :
    (keys.foldl (fun merged key => merged.adopt newer key) diff).written.contains key = true
      ↔ diff.written.contains key = true ∨ key ∈ keys := by
  induction keys generalizing diff with
  | nil => simp
  | cons first keys ih =>
      rw [List.foldl_cons, ih, adopt, Std.ExtTreeSet.contains_insert, Bool.or_eq_true,
        List.mem_cons, beq_iff_eq, Std.compare_eq_iff_eq, eq_comm (a := key)]
      tauto

lemma StorageDiff.written_merge (diff newer : StorageDiff) (key : Word) :
    (diff.merge newer).written.contains key = true
      ↔ diff.written.contains key = true ∨ newer.written.contains key = true := by
  rw [merge, written_foldl_adopt, Std.ExtTreeSet.mem_toList, ← Std.ExtTreeSet.contains_iff_mem]

namespace FrameDiff

variable (diff : FrameDiff) (address : Address) (key : Word)

lemma wrote_writeSlot (written : Address) (key' value : Word) :
    (diff.writeSlot written key' value).wrote address key = true
      ↔ diff.wrote address key = true ∨ (⟨address, key⟩ : SlotKey) = ⟨written, key'⟩ := by
  rw [wrote, wrote, storage_writeSlot, SlotKey.mk.injEq]
  by_cases same : written = address
  · subst same
    rw [if_pos rfl, StorageDiff.write, Std.ExtTreeSet.contains_insert, Bool.or_eq_true, beq_iff_eq,
      Std.compare_eq_iff_eq, eq_self, true_and, eq_comm (a := key), or_comm]
  · simp [same, Ne.symm same]

lemma wrote_merge (newer : FrameDiff) :
    (diff.merge newer).wrote address key = true
      ↔ diff.wrote address key = true ∨ newer.wrote address key = true := by
  rw [wrote, storage_merge, wrote, wrote, Std.ExtTreeMap.getD_eq_getD_getElem? (t := newer.storage)]
  cases newer.storage[address]? with
  | some account => exact StorageDiff.written_merge _ account key
  | none => simp

end FrameDiff

/-- **What a diff knows to be written is what was retained.** -/
theorem recording_written : Recording Query.written? fun diff slots =>
    ∀ address key, diff.wrote address key = true ↔ ⟨address, key⟩ ∈ slots where
  enter address key := by simp [FrameDiff.wrote]
  answer host query diff slots held address key := by
    by_cases writing : ∃ address key value, query = .setSlot address key value
    · obtain ⟨written, key', value, rfl⟩ := writing
      rw [List.mem_append, ← held]
      exact (diff.wrote_writeSlot address key written key' value).trans (by simp [Query.written?])
    · push Not at writing
      have silent : query.written? = none := by
        cases query with
        | setSlot address key value => exact absurd rfl (writing address key value)
        | _ => rfl
      rw [silent, Option.toList_none, List.append_nil, ← held, FrameDiff.wrote,
        query.record_storage host diff writing]
      rfl
  merge older newer address key := by
    rw [FrameDiff.wrote_merge, older, newer, List.mem_append]

/-! ## Executions -/

/-- The slot was written before, in the frame on top or in a nested one that ended in success
together with all in between. -/
def WroteBefore (moments : List Moment) (address : Address) (key : Word) : Prop :=
  ∃ early host value status late,
    moments = early ++ ⟨host, .answered (.setSlot address key value) status⟩ :: late ∧
      retains late = true

lemma wroteBefore_iff {moments : List Moment} {address : Address} {key : Word} :
    WroteBefore moments address key ↔ ⟨address, key⟩ ∈ retained Query.written? moments := by
  rw [mem_retained]
  constructor
  · rintro ⟨early, host, value, status, late, shown, kept⟩
    exact ⟨early, host, _, status, late, shown, rfl, kept⟩
  · rintro ⟨early, host, query, answer, late, shown, written, kept⟩
    cases query with
    | setSlot address' key' value =>
        cases written
        exact ⟨early, host, value, answer, late, shown, kept⟩
    | _ => simp [Query.written?] at written

/-- **The status of a write follows the history of the writes that were kept.**  Let a run come to
a write, and look at the host of the moment before.  The status depends on the value that the slot
would have been answered with then and on the new one, and if both are not zero and differ, on
whether the slot was written before, in the same frame or in what was kept of its nested calls.
Whether the account is new never matters, since a new account reads as zero. -/
theorem execute_write_status (engine : Engine σ) (state : σ) (store : Store)
    (txContext : TxContext) (settings : Settings) (blockHashes : Std.ExtTreeMap Int64 Word)
    (message : CallMessage) (input : Bytes) :
    let run := execute engine Observer.recorder state
      ⟨{ store, txContext, settings, blockHashes }, []⟩ message input
    ∀ before later after address key new status,
      run.2.2.notes = before ++ ⟨later, .answered (.setSlot address key new) status⟩ :: after →
      ∃ earlier, before.getLast? = some earlier ∧
        Classified (earlier.host.answer (.slot address key)).1 new (WroteBefore before address key)
          status ∧
        (earlier.host.accountIsNew address = true →
          (earlier.host.answer (.slot address key)).1 = Word.zero) := by
  intro run before later after address key new status shown
  obtain ⟨outcome, last, visit, -⟩ := execute_visits (rfl : _ = run)
  obtain ⟨earlier, previous, underway, answered⟩ := visit.asked shown
  obtain ⟨frame, below, live, written⟩ := underway.recorded recording_written
  refine ⟨earlier, previous, ?_, fun fresh => Host.slot_of_new fresh key⟩
  have told : status = Host.writeStatus (earlier.host.slot address key) new false
      (frame.diff.wrote address key) :=
    (congrArg Prod.fst answered).symm.trans (Host.setSlot_status live address key new)
  rw [told, wroteBefore_iff, ← written]
  exact Host.writeStatus_classified _ new _

/-- A write to a slot, with its answer. -/
def Event.write? : Event → Option (Address × Word × Word × StorageStatus)
  | .answered (.setSlot address key value) status => some (address, key, value, status)
  | _ => none

/-- A nested call writes six to a slot, and then its caller writes seven. -/
def Engine.rewriting : Engine Bool where
  name := "rewriting"
  version := "1"
  start nested _ _ _ :=
    if nested then
      .ask (.setSlot Address.zero Word.zero (Word.ofNat 6)) fun _ =>
        .finish true (Result.success 0).encode
    else
      .call true selfCall.encode.toList fun state _ =>
        .ask (.setSlot Address.zero Word.zero (Word.ofNat 7)) fun _ =>
          .finish state (Result.success 0).encode

/-- The caller is told that it wrote the slot before, though it was the nested call that did. -/
theorem rewriting_write_status :
    let run := execute Engine.rewriting Observer.recorder false ⟨{ store := .empty }, []⟩
      selfCall []
    ∃ before later after,
      run.2.2.notes = before ++ ⟨later,
        .answered (.setSlot Address.zero Word.zero (Word.ofNat 7)) .modifiedAgain⟩ :: after ∧
      WroteBefore before Address.zero Word.zero := by
  have written : ∃ moment ∈ (execute Engine.rewriting Observer.recorder false
        ⟨{ store := .empty }, []⟩ selfCall []).2.2.notes,
      moment.event.write? = some (Address.zero, Word.zero, Word.ofNat 7, .modifiedAgain) := by
    decide +kernel
  have spec := execute_write_status Engine.rewriting false .empty {} {} ∅ selfCall []
  -- the run itself need not be looked at again
  generalize execute Engine.rewriting _ _ _ _ _ = run at written spec ⊢
  obtain ⟨⟨later, event⟩, member, told⟩ := written
  obtain ⟨before, after, shown⟩ := List.append_of_mem member
  cases event with
  | answered query status =>
      cases query with
      | setSlot address key value =>
          cases told
          obtain ⟨earlier, -, classified, -⟩ := spec _ _ _ _ _ _ _ shown
          obtain ⟨-, -, -, again⟩ := classified.modifiedAgain.1 rfl
          exact ⟨before, later, after, shown, again⟩
      | _ => simp [Event.write?] at told
  | _ => simp [Event.write?] at told

end ContractHost
