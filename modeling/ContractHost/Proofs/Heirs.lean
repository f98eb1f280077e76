import ContractHost.Proofs.Session

/-!
# The accounts that a run adds to the store

The store gets an empty account for an heir as soon as a first destruction names it, and keeps this
account whatever becomes of the frame.  So the accounts of the store after a session are those
before it and the heirs that its events name (`Session.contains_iff`).

A store that gained empty accounts is hard to tell from the older one.  Only three questions look
at the presence of an account, and each of them only at that of its own (`Query.account?`); all
others are answered as before (`Host.answer_of_grown`), the status of a storage write among them.
-/

namespace ContractHost

/-! ## Heirs -/

/-- The beneficiary of a first destruction. -/
def Event.heir? : Event → Option Address
  | .answered (.destroy _ beneficiary) true => some beneficiary
  | _ => none

/-- One of the moments is a first destruction in favour of the account. -/
def Bequeathed (moments : List Moment) (address : Address) : Prop :=
  ∃ moment ∈ moments, moment.event.heir? = some address

instance (moments : List Moment) (address : Address) : Decidable (Bequeathed moments address) :=
  inferInstanceAs (Decidable (∃ moment ∈ moments, moment.event.heir? = some address))

section Bequeathed

variable {address : Address}

@[simp] lemma not_bequeathed_nil : ¬ Bequeathed [] address := by
  simp [Bequeathed]

@[simp] lemma bequeathed_cons {moment : Moment} {moments : List Moment} :
    Bequeathed (moment :: moments) address
      ↔ moment.event.heir? = some address ∨ Bequeathed moments address := by
  simp [Bequeathed]

@[simp] lemma bequeathed_append {before after : List Moment} :
    Bequeathed (before ++ after) address
      ↔ Bequeathed before address ∨ Bequeathed after address := by
  simp only [Bequeathed, List.mem_append, or_and_right, exists_or]

end Bequeathed

namespace Host

variable {host : Host} {frame : Frame} {below : List Frame}

/-- While a call is running, a destruction is answered by whether it is the first. -/
lemma destroy_answer (live : host.stack.frames = frame :: below) (address beneficiary : Address) :
    (host.destroy address beneficiary).1 = !host.stack.isDestroyed address := by
  have current := CallStack.current?_of_live live
  cases seen : host.stack.isDestroyed address <;> simp [destroy, seen, current]

/-- The heir that a question names for an account that no frame has destroyed yet. -/
def heir? (host : Host) : Query → Option Address
  | .destroy subject heir => if host.stack.isDestroyed subject then none else some heir
  | _ => none

/-- While a call is running, the answer tells whether an heir was named. -/
lemma heir?_of_live (live : host.stack.frames = frame :: below) (query : Query) :
    (Event.answered query (host.answer query).1).heir? = host.heir? query := by
  cases query with
  | destroy subject heir =>
      simp only [answer, destroy_answer live, heir?]
      cases host.stack.isDestroyed subject <;> rfl
  | accountExists | accessAccount | accessSlot | slot | setSlot | balance | codeSize | codeHash
  | code | txContext | blockHash | log => rfl

/-- A question adds the heir that it names to the store, and no other account. -/
lemma answer_contains (host : Host) (query : Query) (address : Address) :
    (host.answer query).2.store.contains address = true
      ↔ host.store.contains address = true ∨ host.heir? query = some address := by
  cases query with
  | destroy subject heir =>
      simp only [answer, destroy_host, modifyDiff, modifyCurrent, withHeir, heir?]
      cases seen : host.stack.isDestroyed subject with
      | true => simp
      | false =>
          simp only [Bool.false_eq_true, if_false, Store.contains_eq_isSome_get?,
            Store.get?_create]
          by_cases fresh : heir = address
          · subst fresh
            cases found : host.store.get? heir <;> simp
          · simp [fresh]
  | setSlot address' key value =>
      simp only [answer, setSlot]
      split <;> simp [heir?, modifyDiff, modifyCurrent]
  | balance address' =>
      simp only [answer, balance]
      split <;> simp [heir?, lend, modifyCurrent]
  | log address' data topics =>
      simp only [answer, log]
      split <;> simp [heir?, modifyDiff, modifyCurrent, keepFault]
  | accountExists _ | accessAccount _ | accessSlot _ _ | slot _ _ | codeSize _ | codeHash _
  | code _ | txContext | blockHash _ =>
      simp [answer, heir?, accessAccount, accessSlot, modifyDiff, lend, modifyCurrent]

end Host

/-- **After a session the store has the accounts that it had before, and the heirs.** -/
theorem Session.contains_iff {host last : Host} {moments : List Moment}
    (session : Session host moments last) {frame : Frame} {below : List Frame}
    (live : host.stack.frames = frame :: below) (address : Address) :
    last.store.contains address = true
      ↔ host.store.contains address = true ∨ Bequeathed moments address := by
  induction session generalizing frame below with
  | idle host => simp
  | @asked host _ _ query _ ih =>
      obtain ⟨lent, answered⟩ := Host.answer_frames live query
      rw [ih answered, Host.answer_contains, ← Host.heir?_of_live live, bequeathed_cons, or_assoc]
  | refused refusal _ ih =>
      rw [ih (Host.settle_frames live _), Host.settle_store]
      simp [Event.heir?]
  | @called host inner last _ _ _ _ _ message ending _ run _ ihRun ihRest =>
      have entered := Host.enter_frames live message
      obtain ⟨child, ended, -⟩ := run.top entered
      rw [ihRest (Host.conclude_frames live ended ending), Host.conclude_store, ihRun entered]
      simp [Event.heir?, Host.enter, or_assoc]

/-! ## What gained accounts change -/

/-- The account whose presence in the store decides the answer of a question. -/
def Query.account? : Query → Option Address
  | .accountExists address => some address
  | .balance address => some address
  | .codeHash address => some address
  | _ => none

lemma Store.Extends.get?_eq {newer older : Store} (grown : newer.Extends older)
    {address : Address} (known : newer.contains address = older.contains address) :
    newer.get? address = older.get? address := by
  rcases grown address with same | ⟨absent, empty⟩
  · exact same
  · simp [contains_eq_isSome_get?, absent, empty] at known

lemma Store.slot_of_unknown {store : Store} {address : Address}
    (unknown : store.contains address = false) (key : Word) :
    store.slot address key = Word.zero := by
  rw [contains_eq_isSome_get?, Option.isSome_eq_false_iff, Option.isNone_iff_eq_none] at unknown
  simp [slot, unknown]

/-- The diff knows that the slot was written. -/
def FrameDiff.wrote (diff : FrameDiff) (address : Address) (key : Word) : Bool :=
  (diff.storage.getD address {}).written.contains key

namespace Host

/-- A slot that no frame wrote has the value of the store. -/
lemma slot_of_unwritten {host : Host} {address : Address}
    (unwritten : ∀ frame ∈ host.stack.frames, frame.diff.storage.contains address = false)
    (key : Word) : host.slot address key = host.store.slot address key := by
  have silent : (host.stack.frames.findSome? fun frame => frame.diff.slot? address key) = none := by
    rw [List.findSome?_eq_none_iff]
    intro frame member
    have absent : frame.diff.storage[address]? = none :=
      Std.ExtTreeMap.getElem?_eq_none_of_contains_eq_false (unwritten frame member)
    simp [FrameDiff.slot?, absent]
  simp [slot, CallStack.slot, silent]

/-- The frame on top has not written to the account, none below has touched it, and the store does
not have it. -/
def accountIsNew (host : Host) (address : Address) : Bool :=
  match host.stack.current? with
  | some frame =>
    !frame.diff.storage.contains address && !host.store.contains address &&
      !host.stack.touchesBelow address
  | none => false

/-- A new account reads as zero everywhere. -/
lemma slot_of_new {host : Host} {address : Address} (new : host.accountIsNew address = true)
    (key : Word) : host.slot address key = Word.zero := by
  cases live : host.stack.frames with
  | nil => simp [accountIsNew, CallStack.current?_of_idle live] at new
  | cons frame below =>
      simp only [accountIsNew, CallStack.current?_of_live live, Bool.and_eq_true,
        Bool.not_eq_true', CallStack.touchesBelow, live, List.tail_cons, List.any_eq_false,
        FrameDiff.touches, Bool.or_eq_true, not_or, Bool.not_eq_true] at new
      obtain ⟨⟨unwrittenHere, unknown⟩, untouched⟩ := new
      have unwritten : ∀ other ∈ host.stack.frames,
          other.diff.storage.contains address = false := by
        rw [live, List.forall_mem_cons]
        exact ⟨unwrittenHere, fun other lower => (untouched other lower).1⟩
      rw [slot_of_unwritten unwritten, Store.slot_of_unknown unknown]

/-- **Whether an account is new never decides the status of a write,** since the slots of a new
account are zero anyway. -/
lemma setSlot_status {host : Host} {frame : Frame} {below : List Frame}
    (live : host.stack.frames = frame :: below) (address : Address) (key value : Word) :
    (host.setSlot address key value).1
      = writeStatus (host.slot address key) value false (frame.diff.wrote address key) := by
  have status : (host.setSlot address key value).1
      = writeStatus (host.slot address key) value (host.accountIsNew address)
          (frame.diff.wrote address key) := by
    simp only [setSlot, accountIsNew, CallStack.current?_of_live live, FrameDiff.wrote,
      Std.ExtTreeMap.getD_eq_getD_getElem?]
    cases frame.diff.storage[address]? <;> simp
  rw [status]
  cases new : host.accountIsNew address with
  | false => rfl
  | true =>
      have empty : (host.slot address key).isZero = true := by
        rw [slot_of_new new]
        rfl
      simp [writeStatus, empty]

variable {later earlier : Host}

/-- A store that gained empty accounts gives the same answers to all questions but those that look
at the presence of such an account. -/
theorem answer_of_grown (frames : later.stack = earlier.stack)
    (setting : later.SameSetting earlier) (grown : later.store.Extends earlier.store)
    (query : Query) (known : ∀ address, query.account? = some address →
      later.store.contains address = earlier.store.contains address) :
    (later.answer query).1 = (earlier.answer query).1 := by
  cases query with
  | accountExists address =>
      simp only [answer, accountExists, frames, known address rfl]
  | codeHash address =>
      simp only [answer, codeHash, grown.get?_eq (known address rfl)]
  | balance address =>
      have visible : later.visibleBalance address = earlier.visibleBalance address := by
        simp only [visibleBalance, Store.balance?, frames, grown.get?_eq (known address rfl)]
        rfl
      simp only [answer, balance, visible, frames]
      split <;> rfl
  | slot address key => simp only [answer, slot, frames, CallStack.slot, grown.slot_eq]
  | setSlot address key value =>
      cases live : earlier.stack.frames with
      | nil =>
          have current := CallStack.current?_of_idle live
          simp only [answer, setSlot, frames, current]
      | cons frame below =>
          rw [answer, answer, setSlot_status live, setSlot_status (frames ▸ live)]
          simp only [slot, frames, CallStack.slot, grown.slot_eq]
  | codeSize address => simp only [answer, grown.code_eq]
  | code address => simp only [answer, grown.code_eq]
  | destroy address beneficiary =>
      cases live : earlier.stack.frames with
      | nil =>
          have current := CallStack.current?_of_idle live
          simp only [answer, destroy]
          split_ifs <;> simp [frames, current]
      | cons frame below =>
          rw [answer, answer, destroy_answer live, destroy_answer (frames ▸ live), frames]
  | log address data topics =>
      simp only [answer, log]
      split <;> rfl
  | txContext => simp only [answer, setting.txContext]
  | blockHash number => simp only [answer, setting.blockHashes]
  | accessAccount address => simp only [answer, accessAccount, frames]
  | accessSlot address key => simp only [answer, accessSlot, frames]

/-! ## What an heir's account is seen as -/

section Gained

variable {address : Address} (grown : later.store.Extends earlier.store)
  (gained : later.store.contains address = true) (unknown : earlier.store.contains address = false)
include grown gained unknown

/-- An account that was gained is empty, and was not there. -/
lemma get?_of_gained :
    earlier.store.get? address = none ∧ later.store.get? address = some {} := by
  rcases grown address with same | ⟨absent, empty⟩
  · rw [Store.contains_eq_isSome_get?] at gained unknown
    rw [same, unknown] at gained
    exact absurd gained (by simp)
  · exact ⟨absent, empty⟩

lemma codeHash_of_gained :
    (later.answer (.codeHash address)).1 = Account.emptyCodeHash := by
  obtain ⟨-, empty⟩ := get?_of_gained grown gained unknown
  simp only [answer, codeHash, empty]
  rfl

/-- An account that was gained and that no frame touched has the balance zero. -/
lemma visibleBalance_of_gained (frames : later.stack = earlier.stack) :
    later.visibleBalance address
      = some ((earlier.visibleBalance address).getD 0) := by
  obtain ⟨absent, empty⟩ := get?_of_gained grown gained unknown
  cases touched : earlier.stack.touches address with
  | true => simp [visibleBalance, Store.balance?, absent, empty, frames, touched]
  | false =>
      have still : earlier.stack.balanceDelta address = Delta.zero := by
        have none_of_each : (earlier.stack.frames.filterMap
            fun frame => frame.diff.balances[address]?) = [] := by
          rw [List.filterMap_eq_nil_iff]
          intro frame member
          simp only [CallStack.touches, List.any_eq_false, FrameDiff.touches, Bool.or_eq_true,
            not_or, Bool.not_eq_true] at touched
          exact Std.ExtTreeMap.getElem?_eq_none_of_contains_eq_false (touched frame member).2
        simp only [CallStack.balanceDelta, none_of_each, List.foldl_nil]
      simp [visibleBalance, Store.balance?, absent, empty, frames, touched, still, Delta.add,
        Delta.zero, Delta.ofInt, Delta.minValue, Delta.maxValue]

end Gained

end Host

end ContractHost
