import ContractHost.Proofs.Balance
import ContractHost.Proofs.Provenance

/-!
# What diffs rely on

The tables of a diff could say things that make no sense: a slot with a value that was never
written, a value that is zero, an account that is destroyed although no money has moved.  What a
host builds never does, and lookups and merges rely on it.

The last of these is not a matter of one diff.  The first registration of an account credits it and
its heir in the frame on top, and a later one only marks the account, perhaps in a frame further
up.  When the upper frame is lost the mark goes with it, and when the lower one is lost both do.

* `FrameDiff.WellFormed` — what holds of each diff by itself.
* `Backed` — the accounts that a frame destroys have a balance change there or further down.
* `Session.replay_listing` — a journal that lists entries has what the session retains.
* **`execute_representation`** — every frame at every moment, and the diff that is returned.
-/

namespace ContractHost

variable {σ α : Type}

/-! ## Each diff by itself -/

/-- What the storage of an account relies on. -/
structure StorageDiff.WellFormed (diff : StorageDiff) : Prop where
  recorded : diff.Recorded
  /-- A slot that was set to zero has no value. -/
  nonzero : ∀ key : Word, diff.values[key]? ≠ some Word.zero

namespace StorageDiff

lemma wellFormed_empty : WellFormed {} := ⟨recorded_empty, by simp⟩

lemma WellFormed.write {diff : StorageDiff} (sound : diff.WellFormed) (written value : Word) :
    (diff.write written value).WellFormed where
  recorded := sound.recorded.write written value
  nonzero key := by
    have old := sound.nonzero key
    simp only [StorageDiff.write]
    split_ifs with zero
    · rw [Std.ExtTreeMap.getElem?_erase]
      split_ifs
      · simp
      · exact old
    · rw [Std.ExtTreeMap.getElem?_insert]
      split_ifs
      · rintro ⟨⟩
        exact zero (by decide)
      · exact old

lemma WellFormed.adopt {diff newer : StorageDiff} (sound : diff.WellFormed)
    (soundNewer : newer.WellFormed) (adopted : Word) :
    (diff.adopt newer adopted).WellFormed where
  recorded := sound.recorded.adopt newer adopted
  nonzero key := by
    have old := sound.nonzero key
    simp only [StorageDiff.adopt]
    split
    · next value found =>
        rw [Std.ExtTreeMap.getElem?_insert]
        split_ifs
        · exact found ▸ soundNewer.nonzero adopted
        · exact old
    · rw [Std.ExtTreeMap.getElem?_erase]
      split_ifs
      · simp
      · exact old

lemma WellFormed.merge {diff newer : StorageDiff} (sound : diff.WellFormed)
    (soundNewer : newer.WellFormed) : (diff.merge newer).WellFormed := by
  rw [StorageDiff.merge]
  induction newer.written.toList generalizing diff with
  | nil => exact sound
  | cons key keys ih => exact ih (sound.adopt soundNewer key)

end StorageDiff

/-- What the parts of a diff rely on, each by itself. -/
structure FrameDiff.WellFormed (diff : FrameDiff) : Prop where
  storage : ∀ (address : Address) account, diff.storage[address]? = some account → account.WellFormed
  logs : ∀ entry ∈ diff.logs, entry.topics.length ≤ LogEntry.topicLimit

namespace FrameDiff

variable {diff newer : FrameDiff}

lemma wellFormed_empty : WellFormed {} := ⟨by simp, by simp⟩

lemma WellFormed.storage_getD (sound : diff.WellFormed) (address : Address) :
    (diff.storage.getD address {}).WellFormed :=
  (diff.forall_storage_iff StorageDiff.wellFormed_empty).1 sound.storage address

/-- Only storage and logs matter. -/
lemma WellFormed.of_same (sound : diff.WellFormed) {changed : FrameDiff}
    (storage : changed.storage = diff.storage) (logs : changed.logs = diff.logs) :
    changed.WellFormed :=
  ⟨storage ▸ sound.storage, logs ▸ sound.logs⟩

lemma WellFormed.writeSlot (sound : diff.WellFormed) (written : Address) (key value : Word) :
    (diff.writeSlot written key value).WellFormed where
  storage := by
    rw [forall_storage_iff StorageDiff.wellFormed_empty]
    intro address
    rw [storage_writeSlot]
    split_ifs
    · exact (sound.storage_getD address).write key value
    · exact sound.storage_getD address
  logs := sound.logs

lemma WellFormed.log (sound : diff.WellFormed) {author : Address} {data : Bytes}
    {topics : List Word} {entry : LogEntry} (made : LogEntry.make author data topics = .ok entry) :
    (diff.log entry).WellFormed where
  storage := sound.storage
  logs := by
    rw [LogEntry.make] at made
    split_ifs at made with long
    cases made
    rw [FrameDiff.log, List.forall_mem_append, List.forall_mem_singleton]
    exact ⟨sound.logs, not_lt.1 long⟩

lemma WellFormed.record (sound : diff.WellFormed) (host : Host) (query : Query) :
    (query.record host diff).WellFormed := by
  cases query with
  | setSlot address key value => exact sound.writeSlot address key value
  | log author data topics =>
      simp only [Query.record]
      split
      · next entry made => exact sound.log made
      · exact sound
  | destroy subject heir =>
      simp only [Query.record]
      split_ifs <;> exact sound.of_same rfl rfl
  | accessAccount | accessSlot => exact sound.of_same rfl rfl
  | accountExists | slot | balance | codeSize | codeHash | code | txContext | blockHash =>
      exact sound

lemma WellFormed.merge (sound : diff.WellFormed) (soundNewer : newer.WellFormed) :
    (diff.merge newer).WellFormed where
  storage := by
    rw [forall_storage_iff StorageDiff.wellFormed_empty]
    intro address
    rw [storage_merge]
    cases found : newer.storage[address]? with
    | none => exact sound.storage_getD address
    | some account =>
        exact (sound.storage_getD address).merge (soundNewer.storage address account found)
  logs := List.forall_mem_append.2 ⟨sound.logs, soundNewer.logs⟩

end FrameDiff

/-- **All diffs stay well formed,** whatever else is tracked along with them. -/
theorem Tracks.wellFormed {start : Store} {update : Query → α → α}
    {agrees : List FrameDiff → α → Prop} (tracks : Tracks start update agrees) :
    Tracks start update fun diffs current =>
      (∀ diff ∈ diffs, diff.WellFormed) ∧ agrees diffs current where
  enter holds :=
    ⟨List.forall_mem_cons.2 ⟨FrameDiff.wellFormed_empty, holds.1⟩, tracks.enter holds.2⟩
  answer query frames grown holds := by
    obtain ⟨sound, agrees⟩ := holds
    rw [List.forall_mem_cons] at sound ⊢
    exact ⟨⟨sound.1.record _ query, sound.2⟩, tracks.answer query frames grown agrees⟩
  merge holds := by
    obtain ⟨sound, agrees⟩ := holds
    rw [List.forall_mem_cons, List.forall_mem_cons] at sound
    exact ⟨List.forall_mem_cons.2 ⟨sound.2.1.merge sound.1, sound.2.2⟩, tracks.merge agrees⟩

/-- The diff of a frame stays well formed through its whole session. -/
lemma Session.wellFormed {host last : Host} {moments : List Moment}
    (session : Session host moments last) {frame : Frame} {below : List Frame}
    (live : host.stack.frames = frame :: below) (sound : frame.diff.WellFormed) :
    ∃ top, last.stack.frames = top :: below ∧ top.diff.WellFormed := by
  have recording : Recording (fun _ => (none : Option Unit)) fun diff _ => diff.WellFormed :=
    ⟨FrameDiff.wellFormed_empty, fun host query _ _ sound => sound.record host query,
      FrameDiff.WellFormed.merge⟩
  exact @Session.recorded _ _ _ recording _ _ _ session _ _ live [] sound

/-! ## The first registration -/

/-- The heir that the first registration of an account names. -/
def firstHeir? (bequests : List Bequest) (subject : Address) : Option Address :=
  bequests.findSome? fun bequest =>
    if bequest.subject = subject then some bequest.heir else none

@[simp] lemma firstHeir?_append (older newer : List Bequest) (subject : Address) :
    firstHeir? (older ++ newer) subject
      = (firstHeir? older subject).or (firstHeir? newer subject) :=
  List.findSome?_append

/-- Some frame has a balance change of the account. -/
def Moved (diffs : List FrameDiff) (address : Address) : Prop :=
  ∃ diff ∈ diffs, address ∈ diff.balances

/-- The accounts that a frame destroys have a balance change there or in a frame below. -/
def Backed : List FrameDiff → Prop
  | [] => True
  | diff :: below => (∀ address ∈ diff.destroyed, Moved (diff :: below) address) ∧ Backed below

/-- The diffs account for some registrations: whatever is destroyed was registered, and the heir
of its first registration has a balance change as well. -/
structure Credited (diffs : List FrameDiff) (bequests : List Bequest) : Prop where
  backed : Backed diffs
  registered : ∀ diff ∈ diffs, ∀ address ∈ diff.destroyed,
    (firstHeir? bequests address).isSome = true
  heirs : ∀ subject heir, firstHeir? bequests subject = some heir → Moved diffs heir

section Credited

variable {diff child parent : FrameDiff} {diffs below : List FrameDiff} {address : Address}
  {bequests : List Bequest}

lemma moved_cons :
    Moved (diff :: below) address ↔ address ∈ diff.balances ∨ Moved below address := by
  simp only [Moved, List.exists_mem_cons_iff]

/-- A merge moves what its two frames moved. -/
lemma moved_merge :
    Moved (parent.merge child :: below) address ↔ Moved (child :: parent :: below) address := by
  simp only [moved_cons, FrameDiff.mem_balances_merge, or_assoc, or_left_comm]

lemma Backed.moved (backed : Backed diffs) (member : diff ∈ diffs)
    (destroyed : address ∈ diff.destroyed) : Moved diffs address := by
  induction diffs with
  | nil => cases member
  | cons top below ih =>
      rcases List.mem_cons.1 member with rfl | further
      · exact backed.1 address destroyed
      · exact moved_cons.2 (.inr (ih backed.2 further))

lemma Credited.enter (holds : Credited below bequests) : Credited ({} :: below) bequests where
  backed := ⟨by simp, holds.backed⟩
  registered := List.forall_mem_cons.2 ⟨by simp, holds.registered⟩
  heirs subject heir first := moved_cons.2 (.inr (holds.heirs subject heir first))

/-- Only balances and destructions matter. -/
lemma Credited.of_same (holds : Credited (diff :: below) bequests) {changed : FrameDiff}
    (balances : changed.balances = diff.balances) (destroyed : changed.destroyed = diff.destroyed) :
    Credited (changed :: below) bequests := by
  obtain ⟨backed, registered, heirs⟩ := holds
  simp only [Backed, List.forall_mem_cons, moved_cons] at backed registered heirs
  refine ⟨?_, ?_, ?_⟩ <;>
    simpa only [Backed, List.forall_mem_cons, moved_cons, balances, destroyed]

/-- A registration, first or not: it marks the account, and if it is the first one then its heir
has a balance change. -/
lemma Credited.register (holds : Credited (diff :: below) bequests) {changed : FrameDiff}
    {subject heir : Address} (balances : ∀ address ∈ diff.balances, address ∈ changed.balances)
    (destroyed : ∀ address ∈ changed.destroyed, address = subject ∨ address ∈ diff.destroyed)
    (moved : Moved (changed :: below) subject)
    (first : firstHeir? bequests subject = none → Moved (changed :: below) heir) :
    Credited (changed :: below) (bequests ++ [⟨subject, heir⟩]) := by
  have still : ∀ address, Moved (diff :: below) address → Moved (changed :: below) address := by
    intro address before
    exact moved_cons.2 ((moved_cons.1 before).imp_left (balances address))
  obtain ⟨backed, registered, heirs⟩ := holds
  rw [List.forall_mem_cons] at registered
  refine ⟨⟨fun address mark => ?_, backed.2⟩, List.forall_mem_cons.2 ⟨fun address mark => ?_, ?_⟩,
    fun subject' heir' named => ?_⟩
  · rcases destroyed address mark with rfl | old
    · exact moved
    · exact still address (backed.1 address old)
  · rw [firstHeir?_append, Option.isSome_or]
    rcases destroyed address mark with rfl | old
    · simp [firstHeir?]
    · simp [registered.1 address old]
  · intro further member address mark
    rw [firstHeir?_append, Option.isSome_or, registered.2 further member address mark,
      Bool.true_or]
  · rw [firstHeir?_append, Option.or_eq_some_iff] at named
    rcases named with old | ⟨unnamed, new⟩
    · exact still heir' (heirs subject' heir' old)
    · simp only [firstHeir?, List.findSome?_singleton, Option.ite_none_right_eq_some] at new
      obtain ⟨rfl, ⟨⟩⟩ := new
      exact first unnamed

/-- Destroying an account is a registration, whether it moves money or not. -/
lemma Credited.destroy {host : Host} (holds : Credited (diff :: below) bequests)
    (frames : host.stack.diffs = diff :: below) (subject heir : Address) :
    Credited (Query.record host (.destroy subject heir) diff :: below)
      (bequests ++ [⟨subject, heir⟩]) := by
  have known := host.stack.isDestroyed_iff subject
  simp only [frames, Std.ExtTreeMap.contains_iff_mem] at known
  have marked : ∀ address ∈ (diff.destroy subject heir).destroyed,
      address = subject ∨ address ∈ diff.destroyed := by
    intro address mark
    rw [FrameDiff.destroy, Std.ExtTreeMap.mem_insert] at mark
    exact mark.imp_left fun same => (Std.compare_eq_iff_eq.1 same).symm
  rw [Query.record]
  split_ifs with again
  · -- the account is destroyed already, so somewhere its money has moved
    obtain ⟨earlier, member, mark⟩ := known.1 again
    have named := holds.registered earlier member subject mark
    have moved := moved_cons.1 (holds.backed.moved member mark)
    refine holds.register (fun _ listed => listed) marked (moved_cons.2 moved) fun unnamed => ?_
    rw [unnamed] at named
    cases named
  · refine holds.register (fun address listed => ?_) marked ?_ fun _ => ?_
    · rw [FrameDiff.mem_balances_credit, FrameDiff.mem_balances_credit]
      exact .inr (.inr listed)
    · simp [moved_cons, FrameDiff.mem_balances_credit]
    · simp [moved_cons, FrameDiff.mem_balances_credit]

lemma Credited.merge (holds : Credited (child :: parent :: below) bequests) :
    Credited (parent.merge child :: below) bequests := by
  obtain ⟨⟨backedChild, backedParent, backed⟩, registered, heirs⟩ := holds
  rw [List.forall_mem_cons, List.forall_mem_cons] at registered
  refine ⟨⟨fun address mark => ?_, backed⟩,
    List.forall_mem_cons.2 ⟨fun address mark => ?_, registered.2.2⟩,
    fun subject heir named => moved_merge.2 (heirs subject heir named)⟩
  · rw [moved_merge]
    rcases FrameDiff.mem_destroyed_merge.1 mark with old | new
    · exact moved_cons.2 (.inr (backedParent address old))
    · exact backedChild address new
  · rcases FrameDiff.mem_destroyed_merge.1 mark with old | new
    · exact registered.2.1 address old
    · exact registered.1 address new

end Credited

/-! ## Journals of entries -/

/-- Lists the entries of all questions. -/
def listing (entryOf : Query → Option α) (query : Query) (entries : List α) : List α :=
  entries ++ (entryOf query).toList

/-- **A journal that lists entries has what is retained.** -/
theorem Session.replay_listing {host last : Host} {moments : List Moment}
    (session : Session host moments last) (entryOf : Query → Option α) (entries opened : List α)
    (outer : List (List α)) :
    (Journal.mk entries (opened :: outer)).replay (listing entryOf) moments
      = ⟨entries ++ retained entryOf moments, opened :: outer⟩ := by
  induction session generalizing entries opened outer with
  | idle => rw [Journal.replay_nil, retained, List.append_nil]
  | asked query rest ih =>
      rw [Journal.replay_cons, Journal.step, ih, retained, if_pos rest.retains_eq, listing,
        List.append_assoc]
  | refused _ _ ih => exact ih entries opened outer
  | called ending _ run rest ihRun ihRest =>
      simp only [Journal.replay_cons, Journal.replay_append, Journal.step, ihRun, ihRest, retained,
        run.retained_append, retains_ended, retains_replied, rest.retains_eq, Bool.and_true]
      cases ending.succeeded <;> simp

/-- The same for a whole run, whose last end does not count. -/
lemma Visit.replay_listing {host last : Host} {message : CallMessage} {input : Bytes}
    {outcome : Except Fault Outcome} {moments : List Moment}
    (visit : Visit host message input outcome moments last) (entryOf : Query → Option α) :
    ((Journal.mk [] []).replay (listing entryOf) moments).current
      = retained entryOf moments.dropLast := by
  cases visit with
  | tooDeep | tooLong => rfl
  | ran ending _ _ run =>
      rw [← List.cons_append, List.dropLast_concat]
      simp only [List.cons_append, Journal.replay_cons, Journal.replay_append, Journal.step,
        run.replay_listing, Journal.replay_nil, retained, List.nil_append]

/-- **The frames of a host account for all registrations.** -/
theorem tracks_credited (start : Store) : Tracks start (listing Query.bequest?) Credited where
  enter := Credited.enter
  merge := Credited.merge
  answer := by
    intro host diff below bequests query frames _ holds
    by_cases destroying : ∃ subject heir, query = .destroy subject heir
    · obtain ⟨subject, heir, rfl⟩ := destroying
      exact holds.destroy frames subject heir
    · push Not at destroying
      obtain ⟨balances, destroyed⟩ := query.record_balances host diff destroying
      have unlisted : query.bequest? = none := by
        cases query with
        | destroy subject heir => exact absurd rfl (destroying subject heir)
        | _ => rfl
      rw [listing, unlisted, Option.toList_none, List.append_nil]
      exact holds.of_same balances destroyed

/-! ## Executions -/

lemma credited_nil : Credited [] [] := ⟨trivial, by simp, by simp [firstHeir?]⟩

/-- **Diffs keep their promises.**  At every moment of every run the diffs of all live frames are
well formed, and what they destroy has a balance change in the same frame or in one below it.  So
has the diff that is returned, and there also the heir has one that is named by the first of the
registrations made in the frame at the root or in one that ended in success together with all
frames between it and the root. -/
theorem execute_representation (engine : Engine σ) (state : σ) (store : Store)
    (txContext : TxContext) (settings : Settings) (blockHashes : Std.ExtTreeMap Int64 Word)
    (message : CallMessage) (input : Bytes) :
    let run := execute engine Observer.recorder state
      ⟨{ store, txContext, settings, blockHashes }, []⟩ message input
    (∀ moment ∈ run.2.2.notes,
      (∀ diff ∈ moment.host.stack.diffs, diff.WellFormed) ∧ Backed moment.host.stack.diffs) ∧
    ∀ execution, run.1 = .ok execution →
      execution.diff.WellFormed ∧
      ∀ subject ∈ execution.diff.destroyed, subject ∈ execution.diff.balances ∧
        ∃ heir ∈ execution.diff.balances,
          firstHeir? (retained Query.bequest? run.2.2.notes.dropLast) subject = some heir := by
  intro run
  have idle : ({ store, txContext, settings, blockHashes } : Host).stack.frames = [] := rfl
  obtain ⟨along, returned⟩ := execute_tracks (tracks_credited store).wellFormed engine state idle
    (Store.Extends.refl store) ⟨by simp, credited_nil⟩ message input
  change Journal.Along _ _ _ run.2.2.notes at along
  constructor
  · intro moment member
    obtain ⟨before, after, shown⟩ := List.append_of_mem member
    rw [shown] at along
    obtain ⟨sound, credited⟩ := along.at_split.agrees_seen
    exact ⟨sound, credited.backed⟩
  · intro execution answered
    obtain ⟨outcome, last, visit, -⟩ := execute_visits (rfl : _ = run)
    obtain ⟨sound, backed, registered, heirs⟩ := returned execution answered
    rw [visit.replay_listing] at registered heirs
    have alone : ∀ address, Moved [execution.diff] address ↔ address ∈ execution.diff.balances := by
      intro address
      simp [Moved]
    refine ⟨sound _ List.mem_cons_self, fun subject destroyed => ?_⟩
    obtain ⟨heir, first⟩ := Option.isSome_iff_exists.1
      (registered _ List.mem_cons_self subject destroyed)
    exact ⟨(alone subject).1 (backed.1 subject destroyed), heir,
      (alone heir).1 (heirs subject heir first), first⟩

/-- An account other than zero. -/
def firstborn : Address := Address.ofWord (Word.ofNat 1)

/-- Calls itself to write to a slot and to name an heir, calls itself again to name another account's
heir, which is undone, and names an heir once more. -/
def Engine.disputing : Engine UInt8 where
  name := "disputing"
  version := "1"
  start calls _ _ _ :=
    let again := (CallMessage.plain Address.zero Address.zero 0).encode.toList
    match calls with
    | 0 => .call 1 again fun _ _ => .call 2 again fun _ _ =>
      .ask (.destroy Address.zero Address.zero) fun _ => .finish 3 (Result.success 0).encode
    | 1 => .ask (.setSlot Address.zero Word.zero (Word.ofNat 1)) fun _ =>
      .ask (.destroy Address.zero firstborn) fun _ => .finish 1 (Result.success 0).encode
    | _ => .ask (.destroy firstborn Address.zero) fun _ => .finish 2 (Result.revert 0).encode

/-- What is returned is well formed, and has balance changes of the account that is destroyed and of
the heir that was named first. -/
theorem disputing_representation :
    let run := execute Engine.disputing Observer.recorder 0 ⟨{ store := .empty }, []⟩
      (CallMessage.plain Address.zero Address.zero 0) []
    ∃ execution, run.1 = .ok execution ∧ execution.diff.WellFormed ∧
      Address.zero ∈ execution.diff.destroyed ∧ firstborn ∉ execution.diff.destroyed ∧
      Address.zero ∈ execution.diff.balances ∧ firstborn ∈ execution.diff.balances := by
  have ran :
      let run := execute Engine.disputing Observer.recorder 0 ⟨{ store := .empty }, []⟩
        (CallMessage.plain Address.zero Address.zero 0) []
      (run.1.toOption.map fun execution => execution.diff.destroyed.keys) = some [Address.zero] ∧
      firstHeir? (retained Query.bequest? run.2.2.notes.dropLast) Address.zero
        = some firstborn := by
    decide +kernel
  have spec := execute_representation Engine.disputing 0 .empty {} {} ∅
    (CallMessage.plain Address.zero Address.zero 0) []
  -- the run itself need not be looked at again
  generalize execute Engine.disputing _ _ _ _ _ = run at ran spec ⊢
  obtain ⟨answer, state, world⟩ := run
  obtain ⟨marks, named⟩ := ran
  cases answer with
  | error fault => simp [Except.toOption] at marks
  | ok execution =>
      have marks : execution.diff.destroyed.keys = [Address.zero] := Option.some.inj marks
      have destroyed (address : Address) :
          address ∈ execution.diff.destroyed ↔ address = Address.zero := by
        rw [← Std.ExtTreeMap.mem_keys, marks, List.mem_singleton]
      have apart : firstborn ≠ Address.zero := by decide
      obtain ⟨sound, promised⟩ := spec.2 execution rfl
      have mark := (destroyed Address.zero).2 rfl
      obtain ⟨moved, heir, credited, first⟩ := promised Address.zero mark
      obtain rfl : firstborn = heir := Option.some.inj (named.symm.trans first)
      exact ⟨execution, rfl, sound, mark, fun listed => apart ((destroyed firstborn).1 listed),
        moved, credited⟩

end ContractHost
