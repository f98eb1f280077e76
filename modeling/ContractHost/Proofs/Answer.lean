import ContractHost.Host.Basic
import ContractHost.Proofs.Extension

/-!
# What answering a question changes

One equation for each part of a host, so that no later proof has to look into the answers again.
While a frame is on top, a question changes the diff of this frame by `Query.record` and may lend
it a buffer (`Host.answer_frames`); the store gains at most an empty account
(`Host.answer_extends`); transaction, settings and block hashes stay (`Host.answer_sameSetting`).
-/

namespace ContractHost

namespace CallStack

/-- The diffs of the frames, the one on top first. -/
def diffs (stack : CallStack) : List FrameDiff := stack.frames.map Frame.diff

/-- What some frame has in its diff, some diff has. -/
lemma any_frames_iff (stack : CallStack) (has : FrameDiff → Bool) :
    (stack.frames.any fun frame => has frame.diff) = true
      ↔ ∃ diff ∈ stack.diffs, has diff = true := by
  simp only [List.any_eq_true, diffs, List.mem_map, exists_exists_and_eq_and]

lemma isDestroyed_iff (stack : CallStack) (address : Address) :
    stack.isDestroyed address = true
      ↔ ∃ diff ∈ stack.diffs, diff.destroyed.contains address = true :=
  stack.any_frames_iff fun diff => diff.destroyed.contains address

lemma balanceDelta_eq (stack : CallStack) (address : Address) :
    stack.balanceDelta address
      = (stack.diffs.filterMap fun diff => diff.balances[address]?).foldl Delta.add
        Delta.zero := by
  rw [balanceDelta, diffs, List.filterMap_map]
  rfl

section Frames

variable {stack : CallStack} {frame : Frame} {below : List Frame}

lemma current?_of_live (live : stack.frames = frame :: below) : stack.current? = some frame := by
  rw [current?, live, List.head?_cons]

lemma current?_of_idle (idle : stack.frames = []) : stack.current? = none := by
  rw [current?, idle, List.head?_nil]

lemma diffs_of_live (live : stack.frames = frame :: below) :
    stack.diffs = frame.diff :: below.map Frame.diff := by
  rw [diffs, live, List.map_cons]

lemma modifyCurrent_frames (live : stack.frames = frame :: below) (change : Frame → Frame) :
    (stack.modifyCurrent change).frames = change frame :: below := by
  simp only [modifyCurrent, live]

end Frames

end CallStack

namespace Host

/-- The amount that the first destruction of an account moves: its balance in the store. -/
def estate (host : Host) (address : Address) : Delta :=
  Delta.ofInt ((host.store.balance? address).getD 0).toNat

/-- The host after the beneficiary of a first destruction got an account. -/
def withHeir (host : Host) (address beneficiary : Address) : Host :=
  if host.stack.isDestroyed address then host
  else { host with store := (host.store.create beneficiary).2 }

lemma withHeir_stack (host : Host) (address beneficiary : Address) :
    (host.withHeir address beneficiary).stack = host.stack := by
  unfold withHeir
  split_ifs <;> rfl

lemma withHeir_extends (host : Host) (address beneficiary : Address) :
    (host.withHeir address beneficiary).store.Extends host.store := by
  unfold withHeir
  split_ifs
  · exact Store.Extends.refl _
  · exact Store.create_extends _ _

/-- Making the beneficiary's account does not change what there is to inherit. -/
lemma estate_withHeir (host : Host) (address beneficiary inspected : Address) :
    (host.withHeir address beneficiary).estate inspected = host.estate inspected := by
  simp only [estate, (host.withHeir_extends address beneficiary).balance_eq]

end Host

/-- What answering a question records in the diff of the frame on top. -/
def Query.record (host : Host) : Query → FrameDiff → FrameDiff
  | .accessAccount address, diff => diff.warmAccount address
  | .accessSlot address key, diff => diff.warmSlot address key
  | .setSlot address key value, diff => diff.writeSlot address key value
  | .destroy address beneficiary, diff =>
    if host.stack.isDestroyed address then diff.destroy address beneficiary
    else ((diff.destroy address beneficiary).credit beneficiary (host.estate address)).credit
      address (host.estate address).neg
  | .log address data topics, diff =>
    match LogEntry.make address data topics with
    | .ok entry => diff.log entry
    | .error _ => diff
  | _, diff => diff

namespace Host

variable {host : Host} {frame : Frame} {below : List Frame}

lemma modifyDiff_modifyDiff (host : Host) (first second : FrameDiff → FrameDiff) :
    (host.modifyDiff first).modifyDiff second
      = host.modifyDiff fun diff => second (first diff) := by
  cases frames : host.stack.frames with
  | nil => simp [modifyDiff, modifyCurrent, CallStack.modifyCurrent, frames]
  | cons frame below =>
      simp [modifyDiff, modifyCurrent, CallStack.modifyCurrent, Frame.modifyDiff, frames]

lemma record_destroy_first {address : Address} (first : host.stack.isDestroyed address = false)
    (beneficiary : Address) :
    Query.record host (.destroy address beneficiary)
      = fun diff => ((diff.destroy address beneficiary).credit beneficiary
          ((host.withHeir address beneficiary).estate address)).credit
            address ((host.withHeir address beneficiary).estate address).neg := by
  funext diff
  simp only [Query.record, first, Bool.false_eq_true, if_false, estate_withHeir]

lemma record_destroy_again {address : Address} (again : host.stack.isDestroyed address = true)
    (beneficiary : Address) :
    Query.record host (.destroy address beneficiary)
      = fun diff => diff.destroy address beneficiary := by
  funext diff
  simp only [Query.record, again, if_true]

/-- A destruction in terms of the heir and the estate. -/
lemma destroy_host (host : Host) (address beneficiary : Address) :
    (host.destroy address beneficiary).2
      = (host.withHeir address beneficiary).modifyDiff
          (Query.record host (.destroy address beneficiary)) := by
  have heir := host.withHeir_stack address beneficiary
  cases frames : host.stack.frames with
  | nil =>
      -- without a frame there is no diff to record anything in
      have current := CallStack.current?_of_idle frames
      simp only [modifyDiff, modifyCurrent, CallStack.modifyCurrent, heir, frames]
      cases seen : host.stack.isDestroyed address <;> simp [destroy, withHeir, seen, current]
  | cons frame below =>
      have current := CallStack.current?_of_live frames
      cases seen : host.stack.isDestroyed address with
      | true =>
          rw [record_destroy_again seen]
          simp [destroy, withHeir, seen, current]
      | false =>
          rw [record_destroy_first seen]
          simp [destroy, withHeir, seen, current, modifyDiff_modifyDiff, estate]

/-- **Only the frame on top changes.**  Its diff records the question, and it may be lent a
buffer. -/
theorem answer_frames (live : host.stack.frames = frame :: below) (query : Query) :
    ∃ lent, (host.answer query).2.stack.frames
      = { frame with diff := query.record host frame.diff, lent } :: below := by
  have current := CallStack.current?_of_live live
  cases query with
  | accessAccount address =>
      exact ⟨frame.lent, CallStack.modifyCurrent_frames live _⟩
  | accessSlot address key =>
      exact ⟨frame.lent, CallStack.modifyCurrent_frames live _⟩
  | setSlot address key value =>
      refine ⟨frame.lent, ?_⟩
      simp only [answer, setSlot, current]
      exact CallStack.modifyCurrent_frames live _
  | balance address =>
      simp only [answer, balance, current]
      split
      · exact ⟨_, CallStack.modifyCurrent_frames live _⟩
      · exact ⟨frame.lent, live⟩
  | code address => exact ⟨_, CallStack.modifyCurrent_frames live _⟩
  | destroy address beneficiary =>
      refine ⟨frame.lent, ?_⟩
      rw [answer, destroy_host]
      exact CallStack.modifyCurrent_frames (by rw [withHeir_stack, live]) _
  | log address data topics =>
      refine ⟨frame.lent, ?_⟩
      cases made : LogEntry.make address data topics with
      | ok entry =>
          simp only [answer, log, Query.record, made]
          exact CallStack.modifyCurrent_frames live _
      | error fault =>
          simp only [answer, log, Query.record, made]
          exact live
  | accountExists _ | slot _ _ | codeSize _ | codeHash _ | txContext | blockHash _ =>
      exact ⟨frame.lent, live⟩

lemma answer_diffs (live : host.stack.frames = frame :: below) (query : Query) :
    (host.answer query).2.stack.diffs
      = query.record host frame.diff :: below.map Frame.diff := by
  obtain ⟨lent, frames⟩ := answer_frames live query
  rw [CallStack.diffs_of_live frames]

/-- The store gains at most an empty account. -/
lemma answer_extends (host : Host) (query : Query) :
    (host.answer query).2.store.Extends host.store := by
  cases query with
  | setSlot address key value =>
      simp only [answer, setSlot]
      split <;> exact Store.Extends.refl _
  | balance address =>
      simp only [answer, balance]
      split <;> exact Store.Extends.refl _
  | destroy address beneficiary =>
      rw [answer, destroy_host]
      exact host.withHeir_extends address beneficiary
  | log address data topics =>
      simp only [answer, log]
      split <;> exact Store.Extends.refl _
  | accountExists _ | accessAccount _ | accessSlot _ _ | slot _ _ | codeSize _ | codeHash _
  | code _ | txContext | blockHash _ => exact Store.Extends.refl _

/-- What a session cannot change at all. -/
structure SameSetting (later earlier : Host) : Prop where
  txContext : later.txContext = earlier.txContext
  settings : later.settings = earlier.settings
  blockHashes : later.blockHashes = earlier.blockHashes

lemma SameSetting.refl (host : Host) : host.SameSetting host := ⟨rfl, rfl, rfl⟩

lemma SameSetting.trans {last middle first : Host} (late : last.SameSetting middle)
    (early : middle.SameSetting first) : last.SameSetting first :=
  ⟨late.txContext.trans early.txContext, late.settings.trans early.settings,
    late.blockHashes.trans early.blockHashes⟩

lemma answer_sameSetting (host : Host) (query : Query) :
    (host.answer query).2.SameSetting host := by
  cases query with
  | setSlot address key value =>
      simp only [answer, setSlot]
      split <;> exact ⟨rfl, rfl, rfl⟩
  | balance address =>
      simp only [answer, balance]
      split <;> exact ⟨rfl, rfl, rfl⟩
  | destroy address beneficiary =>
      rw [answer, destroy_host, withHeir]
      split_ifs <;> exact ⟨rfl, rfl, rfl⟩
  | log address data topics =>
      simp only [answer, log]
      split <;> exact ⟨rfl, rfl, rfl⟩
  | accountExists _ | accessAccount _ | accessSlot _ _ | slot _ _ | codeSize _ | codeHash _
  | code _ | txContext | blockHash _ => exact ⟨rfl, rfl, rfl⟩

end Host

end ContractHost
