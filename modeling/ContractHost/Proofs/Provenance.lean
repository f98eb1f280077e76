import ContractHost.Proofs.Conduct
import ContractHost.Proofs.Merge
import ContractHost.Proofs.Succession

/-!
# Where changes come from

Nothing gets into a diff that no engine asked for.  An account is written to, destroyed or named as
the author of a log by a question about itself, and its balance moves because it was destroyed, or
because it was named as the heir of one that was.  So to know which accounts an execution may change
it is enough to know its questions.

* `FrameDiff.Changes` — the accounts that a diff says something about, apart from balances.
* `FrameDiff.AskedFor` — some questions explain the diff; **`recording_questions`** — the retained
  ones do.
-/

namespace ContractHost

namespace FrameDiff

/-- The diff writes the storage of the account, destroys it or has a log of it. -/
def Changes (diff : FrameDiff) (address : Address) : Prop :=
  address ∈ diff.storage ∨ address ∈ diff.destroyed ∨ ∃ entry ∈ diff.logs, entry.address = address

/-- Each change of the diff was asked for by one of the questions. -/
structure AskedFor (diff : FrameDiff) (questions : List Query) : Prop where
  changed : ∀ address, diff.Changes address → ∃ query ∈ questions, query.subject? = some address
  moved : ∀ address ∈ diff.balances, address ∈ diff.destroyed ∨
    ∃ subject, Query.destroy subject address ∈ questions

variable {diff : FrameDiff} {address : Address}

lemma AskedFor.mono {questions more : List Query} (asked : diff.AskedFor questions)
    (among : questions ⊆ more) : diff.AskedFor more where
  changed address changes := by
    obtain ⟨query, member, subject⟩ := asked.changed address changes
    exact ⟨query, among member, subject⟩
  moved address moved := by
    refine (asked.moved address moved).imp_right ?_
    rintro ⟨subject, member⟩
    exact ⟨subject, among member⟩

/-! ## Recording -/

lemma changes_writeSlot (written : Address) (key value : Word) :
    (diff.writeSlot written key value).Changes address
      ↔ written = address ∨ diff.Changes address := by
  simp [Changes, writeSlot, modifyStorage, or_assoc]

lemma changes_destroy (subject heir : Address) :
    (diff.destroy subject heir).Changes address ↔ subject = address ∨ diff.Changes address := by
  simp [Changes, destroy, or_assoc, or_left_comm]

lemma changes_log (entry : LogEntry) :
    (diff.log entry).Changes address ↔ entry.address = address ∨ diff.Changes address := by
  simp [Changes, log, or_and_right, exists_or, or_comm, or_left_comm]

lemma changes_credit (credited : Address) (amount : Delta) :
    (diff.credit credited amount).Changes address ↔ diff.Changes address := Iff.rfl

lemma mem_balances_credit (credited : Address) (amount : Delta) :
    address ∈ (diff.credit credited amount).balances
      ↔ credited = address ∨ address ∈ diff.balances := by
  simp [credit, creditTo]

/-- A question adds at most its own account to those that a diff changes. -/
lemma changes_record {host : Host} {query : Query}
    (changes : (query.record host diff).Changes address) :
    query.subject? = some address ∨ diff.Changes address := by
  cases query with
  | setSlot written key value =>
      simpa [Query.subject?] using (changes_writeSlot written key value).1 changes
  | destroy subject heir =>
      have destroyed : (diff.destroy subject heir).Changes address := by
        simp only [Query.record] at changes
        split_ifs at changes
        · exact changes
        · simpa only [changes_credit] using changes
      simpa [Query.subject?] using (changes_destroy subject heir).1 destroyed
  | log author data topics =>
      simp only [Query.record] at changes
      split at changes
      · next entry made =>
          have same : entry.address = author := by
            rw [LogEntry.make] at made
            split_ifs at made
            cases made
            rfl
          simpa [Query.subject?, same] using (changes_log entry).1 changes
      · exact .inr changes
  | accountExists | accessAccount | accessSlot | slot | balance | codeSize | codeHash | code
  | txContext | blockHash => exact .inr changes

/-- A balance moves with a destruction only, and then it is that of the destroyed account or of its
heir. -/
lemma mem_balances_record {host : Host} {query : Query}
    (moved : address ∈ (query.record host diff).balances) :
    address ∈ diff.balances ∨ ∃ subject heir, query = .destroy subject heir ∧
      (subject = address ∨ heir = address) := by
  cases query with
  | destroy subject heir =>
      simp only [Query.record] at moved
      split_ifs at moved
      · exact .inl moved
      · simp only [mem_balances_credit] at moved
        rcases moved with own | inherited | old
        · exact .inr ⟨subject, heir, rfl, .inl own⟩
        · exact .inr ⟨subject, heir, rfl, .inr inherited⟩
        · exact .inl old
  | log author data topics =>
      simp only [Query.record] at moved
      split at moved <;> exact .inl moved
  | setSlot | accountExists | accessAccount | accessSlot | slot | balance | codeSize | codeHash
  | code | txContext | blockHash => exact .inl moved

lemma mem_destroyed_record (host : Host) (query : Query) :
    address ∈ (query.record host diff).destroyed
      ↔ (∃ heir, query = .destroy address heir) ∨ address ∈ diff.destroyed := by
  rw [accrual_destroyed.record]
  cases query <;> simp [enroll]

/-! ## Merging -/

lemma mem_destroyed_merge {older newer : FrameDiff} :
    address ∈ (older.merge newer).destroyed
      ↔ address ∈ older.destroyed ∨ address ∈ newer.destroyed :=
  Std.ExtTreeMap.mem_union_iff

lemma mem_storage_merge {older newer : FrameDiff} :
    address ∈ (older.merge newer).storage ↔ address ∈ older.storage ∨ address ∈ newer.storage :=
  mem_foldl_toList StorageDiff.merge {} older.storage newer.storage address

lemma changes_merge {older newer : FrameDiff} :
    (older.merge newer).Changes address ↔ older.Changes address ∨ newer.Changes address := by
  have logs : (∃ entry ∈ older.logs ++ newer.logs, entry.address = address)
      ↔ (∃ entry ∈ older.logs, entry.address = address) ∨
        ∃ entry ∈ newer.logs, entry.address = address := by
    simp only [List.mem_append, or_and_right, exists_or]
  rw [Changes, mem_storage_merge, mem_destroyed_merge, Changes, Changes]
  exact (or_congr_right ((or_congr_right logs).trans (or_or_or_comm ..))).trans (or_or_or_comm ..)

lemma mem_balances_merge {older newer : FrameDiff} :
    address ∈ (older.merge newer).balances
      ↔ address ∈ older.balances ∨ address ∈ newer.balances :=
  mem_foldl_toList Delta.add Delta.zero older.balances newer.balances address

end FrameDiff

/-- **The questions that are retained explain the diff.** -/
theorem recording_questions : Recording some FrameDiff.AskedFor where
  enter := ⟨by simp [FrameDiff.Changes], by simp⟩
  answer := by
    intro host query diff questions asked
    have before := asked.mono (List.subset_append_left questions [query])
    refine ⟨fun address changes => ?_, fun address moved => ?_⟩
    · rcases FrameDiff.changes_record changes with own | old
      · exact ⟨query, by simp, own⟩
      · exact before.changed address old
    · rw [FrameDiff.mem_destroyed_record]
      rcases FrameDiff.mem_balances_record moved with old | ⟨subject, heir, rfl, rfl | rfl⟩
      · exact (before.moved address old).imp_left .inr
      · exact .inl (.inl ⟨heir, rfl⟩)
      · exact .inr ⟨subject, by simp⟩
  merge := by
    intro older newer early late askedEarly askedLate
    have before := askedEarly.mono (List.subset_append_left early late)
    have after := askedLate.mono (List.subset_append_right early late)
    refine ⟨fun address changes => ?_, fun address moved => ?_⟩
    · rcases FrameDiff.changes_merge.1 changes with old | new
      · exact before.changed address old
      · exact after.changed address new
    · rw [FrameDiff.mem_destroyed_merge]
      rcases FrameDiff.mem_balances_merge.1 moved with old | new
      · exact (before.moved address old).imp_left .inl
      · exact (after.moved address new).imp_left .inr

end ContractHost
