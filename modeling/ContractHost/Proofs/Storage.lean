import ContractHost.Proofs.Journal
import ContractHost.Proofs.Merge

/-!
# Storage is flat

What engines see of storage, through any number of frames with their partial tables and their
deletions, is one table that every write overwrites, and that is put back to what it was when a
nested call ends without success.

* `FlatStorage` — that table, and what questions do to it; `Journal` saves it and puts it back.
* `ReadsAs` — the frames over a store read as a table does.  This is the invariant.
* **`execute_storage`** — every slot that is read during a run, and the diff that is returned.
-/

namespace ContractHost

variable {σ : Type}

/-! ## The table -/

/-- A value for every slot of every account. -/
abbrev FlatStorage := Address → Word → Word

namespace FlatStorage

def write (flat : FlatStorage) (written : Address) (key value : Word) : FlatStorage :=
  fun address key' => if written = address ∧ key = key' then value else flat address key'

def update : Query → FlatStorage → FlatStorage
  | .setSlot address key value, flat => flat.write address key value
  | _, flat => flat

/-- The table after the first moments of an execution. -/
def after (store : Store) (moments : List Moment) : FlatStorage :=
  ((Journal.mk store.slot []).replay update moments).current

end FlatStorage

/-! ## The invariant -/

/-- Slots read through the diffs, and then in the store, have the values of the table. -/
structure ReadsAs (start : Store) (diffs : List FrameDiff) (flat : FlatStorage) : Prop where
  recorded : ∀ diff ∈ diffs, diff.Recorded
  reads : ∀ address key,
    (diffs.findSome? fun diff => diff.slot? address key).getD (start.slot address key)
      = flat address key

section ReadsAs

variable {start : Store} {diff child parent : FrameDiff} {below : List FrameDiff}
  {flat : FlatStorage}

lemma readsAs_nil (start : Store) : ReadsAs start [] start.slot where
  recorded := by simp
  reads := by simp

lemma ReadsAs.enter (holds : ReadsAs start below flat) : ReadsAs start ({} :: below) flat where
  recorded := by
    rw [List.forall_mem_cons]
    exact ⟨FrameDiff.recorded_empty, holds.recorded⟩
  reads address key := by
    rw [← holds.reads]
    simp [FrameDiff.slot?]

lemma ReadsAs.write (holds : ReadsAs start (diff :: below) flat) (written : Address)
    (key value : Word) :
    ReadsAs start (diff.writeSlot written key value :: below) (flat.write written key value) where
  recorded := by
    have recorded := holds.recorded
    rw [List.forall_mem_cons] at recorded ⊢
    exact ⟨recorded.1.writeSlot written key value, recorded.2⟩
  reads address key' := by
    have reads := holds.reads address key'
    rw [List.findSome?_cons] at reads
    rw [FlatStorage.write, List.findSome?_cons, FrameDiff.slot?_writeSlot]
    split_ifs
    · rfl
    · exact reads

/-- Only storage matters. -/
lemma ReadsAs.of_storage_eq (holds : ReadsAs start (diff :: below) flat) {changed : FrameDiff}
    (same : changed.storage = diff.storage) : ReadsAs start (changed :: below) flat where
  recorded := by
    have recorded := holds.recorded
    rw [List.forall_mem_cons] at recorded ⊢
    refine ⟨?_, recorded.2⟩
    rw [FrameDiff.Recorded, same]
    exact recorded.1
  reads address key := by
    rw [← holds.reads, List.findSome?_cons, List.findSome?_cons, FrameDiff.slot?, same]
    rfl

lemma ReadsAs.merge (holds : ReadsAs start (child :: parent :: below) flat) :
    ReadsAs start (parent.merge child :: below) flat where
  recorded := by
    have recorded := holds.recorded
    rw [List.forall_mem_cons, List.forall_mem_cons] at recorded
    rw [List.forall_mem_cons]
    exact ⟨recorded.2.1.merge child, recorded.2.2⟩
  reads address key := by
    have recorded : child.Recorded := holds.recorded child List.mem_cons_self
    rw [← holds.reads, List.findSome?_cons, List.findSome?_cons, List.findSome?_cons,
      parent.slot?_merge recorded]
    cases child.slot? address key <;> rfl

/-- No question but a write records anything about storage. -/
lemma Query.record_storage {query : Query} (host : Host) (diff : FrameDiff)
    (reading : ∀ address key value, query ≠ .setSlot address key value) :
    (query.record host diff).storage = diff.storage := by
  cases query with
  | setSlot address key value => exact absurd rfl (reading address key value)
  | destroy address beneficiary =>
      simp only [record]
      split_ifs <;> rfl
  | log address data topics =>
      simp only [record]
      split <;> rfl
  | accountExists | accessAccount | accessSlot | slot | balance | codeSize | codeHash | code
  | txContext | blockHash => rfl

/-- **The frames of a host track flat storage.** -/
theorem tracks_storage (start : Store) : Tracks start FlatStorage.update (ReadsAs start) where
  enter := ReadsAs.enter
  merge := ReadsAs.merge
  answer := by
    intro host diff below flat query _ _ holds
    by_cases writing : ∃ address key value, query = .setSlot address key value
    · obtain ⟨address, key, value, rfl⟩ := writing
      exact holds.write address key value
    · push Not at writing
      have untouched : FlatStorage.update query flat = flat := by
        cases query with
        | setSlot address key value => exact absurd rfl (writing address key value)
        | _ => rfl
      rw [untouched]
      exact holds.of_storage_eq (query.record_storage host diff writing)

/-- A slot is answered with the value of the table. -/
lemma ReadsAs.slot_eq {host : Host} (holds : ReadsAs start host.stack.diffs flat)
    (grown : host.store.Extends start) (address : Address) (key : Word) :
    host.slot address key = flat address key := by
  rw [← holds.reads, Host.slot, CallStack.slot, CallStack.diffs, List.findSome?_map,
    grown.slot_eq]
  rfl

end ReadsAs

/-! ## Executions -/

/-- **The storage that a run sees is flat.**  Let a table start with the values of the store, be
overwritten by every write, and be put back whenever a nested call that reached an engine ends
without success.  Then every slot is answered with the value of the table at that moment, and the
returned diff over the store reads as the table does at the end. -/
theorem execute_storage (engine : Engine σ) (state : σ) (store : Store) (txContext : TxContext)
    (settings : Settings) (blockHashes : Std.ExtTreeMap Int64 Word) (message : CallMessage)
    (input : Bytes) :
    let run := execute engine Observer.recorder state
      ⟨{ store, txContext, settings, blockHashes }, []⟩ message input
    (∀ before after inner address key value,
      run.2.2.notes = before ++ ⟨inner, .answered (.slot address key) value⟩ :: after →
      value = FlatStorage.after store before address key) ∧
    ∀ execution, run.1 = .ok execution → ∀ address key,
      (execution.diff.slot? address key).getD (store.slot address key)
        = FlatStorage.after store run.2.2.notes address key := by
  intro run
  have idle : ({ store, txContext, settings, blockHashes } : Host).stack.frames = [] := rfl
  obtain ⟨along, returned⟩ := execute_tracks (tracks_storage store) engine state idle
    (Store.Extends.refl store) (readsAs_nil store) message input
  constructor
  · intro before after inner address key value shown
    change Journal.Along _ _ _ run.2.2.notes at along
    rw [shown] at along
    obtain ⟨asked, answered, grown, holds⟩ := along.at_split.asked _ _ rfl
    have value_eq : value = asked.slot address key := (congrArg Prod.fst answered).symm
    rw [value_eq]
    exact holds.slot_eq grown address key
  · intro execution answered address key
    have reads := (returned execution answered).reads address key
    rw [List.findSome?_cons, List.findSome?_nil] at reads
    refine Eq.trans ?_ reads
    cases execution.diff.slot? address key <;> rfl

/-- The slot that was asked for. -/
def Event.slotAsked? : Event → Option (Address × Word)
  | .answered (.slot address key) _ => some (address, key)
  | _ => none

/-- Writes one to a slot, calls itself to write two, and calls itself again to write three, which is
undone.  Then it asks for the slot. -/
def Engine.redrafting : Engine UInt8 where
  name := "redrafting"
  version := "1"
  start calls _ _ _ :=
    .ask (.setSlot Address.zero Word.zero (Word.ofNat (calls.toNat + 1))) fun _ =>
      let again := (CallMessage.plain Address.zero Address.zero 0).encode.toList
      match calls with
      | 0 => .call 1 again fun _ _ => .call 2 again fun _ _ =>
        .ask (.slot Address.zero Word.zero) fun _ => .finish 3 (Result.success 0).encode
      | 1 => .finish 1 (Result.success 0).encode
      | _ => .finish 2 (Result.revert 0).encode

/-- It is told two, and two is what it leaves. -/
theorem redrafting_storage :
    let run := execute Engine.redrafting Observer.recorder 0 ⟨{ store := .empty }, []⟩
      (CallMessage.plain Address.zero Address.zero 0) []
    (∃ before inner after, run.2.2.notes = before ++
      ⟨inner, .answered (.slot Address.zero Word.zero) (Word.ofNat 2)⟩ :: after) ∧
    ∃ execution, run.1 = .ok execution ∧
      (execution.diff.slot? Address.zero Word.zero).getD Word.zero = Word.ofNat 2 := by
  have ran :
      let run := execute Engine.redrafting Observer.recorder 0 ⟨{ store := .empty }, []⟩
        (CallMessage.plain Address.zero Address.zero 0) []
      run.1.isOk = true ∧
      (run.2.2.notes[12]?.bind fun moment => moment.event.slotAsked?)
        = some (Address.zero, Word.zero) ∧
      FlatStorage.after .empty (run.2.2.notes.take 12) Address.zero Word.zero = Word.ofNat 2 ∧
      FlatStorage.after .empty run.2.2.notes Address.zero Word.zero = Word.ofNat 2 := by
    decide +kernel
  have spec := execute_storage Engine.redrafting 0 .empty {} {} ∅
    (CallMessage.plain Address.zero Address.zero 0) []
  -- the run itself need not be looked at again
  generalize execute Engine.redrafting _ _ _ _ _ = run at ran spec ⊢
  obtain ⟨answer, state, world⟩ := run
  obtain ⟨answered, asked, value, final⟩ := ran
  constructor
  · obtain ⟨⟨inner, event⟩, here, told⟩ := Option.bind_eq_some_iff.1 asked
    obtain ⟨inside, here⟩ := List.getElem?_eq_some_iff.1 here
    have shown : world.notes = world.notes.take 12 ++ ⟨inner, event⟩ :: world.notes.drop 13 := by
      rw [← here, List.getElem_cons_drop, List.take_append_drop]
    cases event with
    | answered query answer =>
        cases query with
        | slot address key =>
            cases told
            have two := spec.1 _ _ _ _ _ _ shown
            rw [value] at two
            subst two
            exact ⟨_, inner, _, shown⟩
        | _ => simp [Event.slotAsked?] at told
    | _ => simp [Event.slotAsked?] at told
  · cases answer with
    | error fault => simp [Except.isOk, Except.toBool] at answered
    | ok execution =>
        have reads := spec.2 execution rfl Address.zero Word.zero
        rw [final] at reads
        exact ⟨execution, rfl, reads⟩

end ContractHost
