import ContractHost.Proofs.Representation

/-!
# Merging changes nothing that can be read

A read walks along the frames from the top, and a merge folds the frame on top into the one below.
Both end with the same: the newer frame decides a slot, marks of either frame are marks of the
merged one, and although a saturating sum depends on how it is bracketed, the walk starts with the
two amounts that the merge has added.

* `SeenAlike` — two stacks between which no read can tell.
* **`CallStack.merge_seenAlike`** — the stack with its frame on top merged into the next one.
-/

namespace ContractHost

/-! ## Amounts -/

namespace Delta

lemma ofInt_val_self (a : Delta) : ofInt a.val = a := by
  obtain ⟨value, lower, upper⟩ := a
  simp only [ofInt, Delta.mk.injEq]
  omega

lemma zero_add (a : Delta) : zero.add a = a := by
  rw [add, zero_val, Int.zero_add, ofInt_val_self]

/-- Which of two amounts comes first does not matter, although a third one may not join in. -/
lemma add_comm (a b : Delta) : a.add b = b.add a := by
  rw [add, add, Int.add_comm]

end Delta

/-! ## Merged diffs -/

namespace FrameDiff

variable (older newer : FrameDiff) (address : Address)

lemma touches_merge :
    (older.merge newer).touches address = (newer.touches address || older.touches address) := by
  rw [Bool.eq_iff_iff]
  simp only [touches, Bool.or_eq_true, Std.ExtTreeMap.contains_iff_mem, mem_storage_merge,
    mem_balances_merge]
  tauto

/-- **One amount for two.**  A walk that starts with the amounts of two frames adds them up to what
a merge makes of them, and goes on from there. -/
lemma foldl_add_merge (below : List FrameDiff) :
    ((newer :: older :: below).filterMap fun diff => diff.balances[address]?).foldl Delta.add
        Delta.zero
      = ((older.merge newer :: below).filterMap fun diff => diff.balances[address]?).foldl Delta.add
        Delta.zero := by
  simp only [List.filterMap_cons, balances_merge, delta, Std.ExtTreeMap.getD_eq_getD_getElem?]
  cases newer.balances[address]? with
  | none => rfl
  | some late =>
      cases older.balances[address]? with
      | none => simp only [Option.getD_none, List.foldl_cons, Delta.zero_add]
      | some early =>
          simp only [Option.getD_some, List.foldl_cons, Delta.zero_add, Delta.add_comm late early]

end FrameDiff

/-! ## Stacks -/

/-- Whatever is read along the frames of two stacks is the same. -/
structure SeenAlike (before after : CallStack) : Prop where
  slot : ∀ store address key, after.slot store address key = before.slot store address key
  balanceDelta : ∀ address, after.balanceDelta address = before.balanceDelta address
  touches : ∀ address, after.touches address = before.touches address
  isDestroyed : ∀ address, after.isDestroyed address = before.isDestroyed address
  isWarmAccount : ∀ address, after.isWarmAccount address = before.isWarmAccount address
  isWarmSlot : ∀ address key, after.isWarmSlot address key = before.isWarmSlot address key

section Merge

variable {before after : CallStack} {child parent : Frame} {below : List Frame}

/-- Two frames on top and the one that they were merged into are seen alike. -/
lemma SeenAlike.of_merge (frames : before.frames = child :: parent :: below)
    (merged : after.frames = parent.modifyDiff (·.merge child.diff) :: below)
    (recorded : child.diff.Recorded) : SeenAlike before after where
  slot store address key := by
    rw [CallStack.slot, CallStack.slot, frames, merged, List.findSome?_cons, List.findSome?_cons,
      List.findSome?_cons, Frame.modifyDiff, parent.diff.slot?_merge recorded]
    cases child.diff.slot? address key <;> rfl
  balanceDelta address := by
    rw [CallStack.balanceDelta_eq, CallStack.balanceDelta_eq, CallStack.diffs_of_live frames,
      CallStack.diffs_of_live merged]
    exact (parent.diff.foldl_add_merge child.diff address (below.map Frame.diff)).symm
  touches address := by
    simp only [CallStack.touches, frames, merged, List.any_cons, Frame.modifyDiff,
      FrameDiff.touches_merge, Bool.or_assoc]
  isDestroyed address := by
    simp only [CallStack.isDestroyed, frames, merged, List.any_cons, Frame.modifyDiff,
      FrameDiff.merge, Std.ExtTreeMap.contains_union, Bool.or_assoc, Bool.or_left_comm]
  isWarmAccount address := by
    simp only [CallStack.isWarmAccount, frames, merged, List.any_cons, Frame.modifyDiff,
      FrameDiff.merge, Std.ExtTreeSet.contains_union, Bool.or_assoc, Bool.or_left_comm]
  isWarmSlot address key := by
    simp only [CallStack.isWarmSlot, frames, merged, List.any_cons, Frame.modifyDiff,
      FrameDiff.merge, Std.ExtTreeSet.contains_union, Bool.or_assoc, Bool.or_left_comm]

/-- **Merging is invisible.**  Take the frame on top off a stack and merge what it changed into the
frame below.  If every value that it has for a slot was written, nothing that is read along the
frames is different afterwards, whatever else the two frames hold. -/
theorem CallStack.merge_seenAlike {stack : CallStack}
    (frames : stack.frames = child :: parent :: below)
    (recorded : ∀ (address : Address) account,
      child.diff.storage[address]? = some account → account.Recorded) :
    let (popped, rest) := stack.popTo (below.length + 1)
    popped = some child ∧
      SeenAlike stack (rest.modifyCurrent fun frame => frame.modifyDiff (·.merge child.diff)) := by
  have one : (child :: parent :: below).length - (below.length + 1) = 1 := by
    rw [List.length_cons, List.length_cons, Nat.add_sub_cancel_left]
  have popped : stack.popTo (below.length + 1) = (some child, ⟨parent :: below⟩) := by
    rw [popTo, frames, one]
    rfl
  rw [popped]
  refine ⟨rfl, .of_merge frames rfl ?_⟩
  exact (child.diff.forall_storage_iff StorageDiff.recorded_empty).1 recorded

end Merge

/-- A caller that has a value in a slot and no room for more money, and a callee that has deleted
the slot and been given more. -/
def overfull : CallStack where
  frames := [
    { message := CallMessage.plain Address.zero Address.zero 0
      diff := (FrameDiff.empty.writeSlot Address.zero Word.zero Word.zero).credit Address.zero
        (Delta.ofInt 7) },
    { message := CallMessage.plain Address.zero Address.zero 0
      diff := (FrameDiff.empty.writeSlot Address.zero Word.zero (Word.ofNat 1)).credit Address.zero
        (Delta.ofInt Delta.maxValue) }]

/-- The slot stays deleted, and the amount as large as it can be. -/
theorem overfull_merged :
    let (popped, rest) := overfull.popTo 1
    ∃ child, popped = some child ∧
      let merged := rest.modifyCurrent fun frame => frame.modifyDiff (·.merge child.diff)
      merged.slot .empty Address.zero Word.zero = Word.zero ∧
      (merged.balanceDelta Address.zero).val = Delta.maxValue := by
  have recorded := (FrameDiff.forall_storage_iff StorageDiff.recorded_empty _).2
    (FrameDiff.recorded_empty.writeSlot Address.zero Word.zero Word.zero)
  have seen : overfull.slot .empty Address.zero Word.zero = Word.zero ∧
      (overfull.balanceDelta Address.zero).val = Delta.maxValue := by
    decide +kernel
  obtain ⟨popped, alike⟩ := CallStack.merge_seenAlike (rfl : overfull.frames = _) recorded
  have total := congrArg Delta.val (alike.balanceDelta Address.zero)
  exact ⟨_, popped, (alike.slot .empty Address.zero Word.zero).trans seen.1, total.trans seen.2⟩

end ContractHost
