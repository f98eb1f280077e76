import ContractHost.Host.Call
import ContractHost.Proofs.Answer

/-!
# Hosts that answer alike

Of the messages of its frames a host needs only the depth of the one on top, to put a nested call
one level below it, and the limit of depth only to reject a call.  Nothing else that a host does
depends on them: two hosts that differ in the messages and in the limit, and in nothing else, answer
all questions alike, and go on differing in nothing else.

* `Host.stripped` — a host without messages and limit.  One lemma for each operation says that it
  does the same on the stripped host; `Host.answer_stripped` is the one for questions.
* `Host.Resembles` — two hosts are the same when they are stripped.
-/

namespace ContractHost

/-- The frame without its message. -/
def Frame.stripped (frame : Frame) : Frame :=
  { frame with message := .plain Address.zero Address.zero 0 }

/-- The stack without the messages of its frames. -/
def CallStack.stripped (stack : CallStack) : CallStack := ⟨stack.frames.map Frame.stripped⟩

namespace CallStack

variable (stack : CallStack)

@[simp] lemma size_stripped : stack.stripped.size = stack.size := List.length_map _

@[simp] lemma current?_stripped : stack.stripped.current? = stack.current?.map Frame.stripped :=
  List.head?_map

@[simp] lemma slot_stripped (store : Store) (address : Address) (key : Word) :
    stack.stripped.slot store address key = stack.slot store address key := by
  rw [slot, slot, stripped, List.findSome?_map]
  rfl

@[simp] lemma balanceDelta_stripped (address : Address) :
    stack.stripped.balanceDelta address = stack.balanceDelta address := by
  rw [balanceDelta, balanceDelta, stripped, List.filterMap_map]
  rfl

@[simp] lemma touches_stripped (address : Address) :
    stack.stripped.touches address = stack.touches address := by
  rw [touches, touches, stripped, List.any_map]
  rfl

@[simp] lemma touchesBelow_stripped (address : Address) :
    stack.stripped.touchesBelow address = stack.touchesBelow address := by
  rw [touchesBelow, touchesBelow, stripped, ← List.map_tail, List.any_map]
  rfl

@[simp] lemma isDestroyed_stripped (address : Address) :
    stack.stripped.isDestroyed address = stack.isDestroyed address := by
  rw [isDestroyed, isDestroyed, stripped, List.any_map]
  rfl

@[simp] lemma isWarmAccount_stripped (address : Address) :
    stack.stripped.isWarmAccount address = stack.isWarmAccount address := by
  rw [isWarmAccount, isWarmAccount, stripped, List.any_map]
  rfl

@[simp] lemma isWarmSlot_stripped (address : Address) (key : Word) :
    stack.stripped.isWarmSlot address key = stack.isWarmSlot address key := by
  rw [isWarmSlot, isWarmSlot, stripped, List.any_map]
  rfl

/-- A change that does not look at the message makes the same of the stripped frame. -/
lemma modifyCurrent_stripped (change : Frame → Frame)
    (blind : ∀ frame, change frame.stripped = (change frame).stripped) :
    stack.stripped.modifyCurrent change = (stack.modifyCurrent change).stripped := by
  obtain ⟨_ | ⟨frame, below⟩⟩ := stack
  · rfl
  · simp only [stripped, modifyCurrent, List.map_cons, blind]

lemma popTo_stripped (size : ℕ) :
    stack.stripped.popTo size = ((stack.popTo size).1.map Frame.stripped,
      (stack.popTo size).2.stripped) := by
  simp only [popTo, stripped, List.length_map, ← List.map_take, ← List.map_drop, List.getLast?_map]

end CallStack

namespace Host

/-- The host without the messages of its frames, and without its limit of depth. -/
def stripped (host : Host) : Host :=
  { host with
    settings := { host.settings with maxCallDepth := 0 }
    stack := host.stack.stripped }

/-- The hosts differ in the messages of their frames and in the limit of depth at most. -/
def Resembles (host other : Host) : Prop := host.stripped = other.stripped

variable (host : Host)

lemma modifyDiff_stripped (change : FrameDiff → FrameDiff) :
    host.stripped.modifyDiff change = (host.modifyDiff change).stripped := by
  have same := host.stack.modifyCurrent_stripped (fun frame => frame.modifyDiff change) fun _ => rfl
  exact congrArg (fun stack => { host.stripped with stack }) same

lemma lend_stripped (bytes : Bytes) :
    host.stripped.lend bytes = (host.lend bytes).stripped := by
  have same := host.stack.modifyCurrent_stripped (fun frame => frame.lend bytes) fun _ => rfl
  exact congrArg (fun stack => { host.stripped with stack }) same

lemma visibleBalance_stripped (address : Address) :
    host.stripped.visibleBalance address = host.visibleBalance address := by
  simp only [visibleBalance, stripped, CallStack.touches_stripped, CallStack.balanceDelta_stripped]

lemma balance_stripped (address : Address) :
    host.stripped.balance address
      = ((host.balance address).1, (host.balance address).2.stripped) := by
  rw [balance, balance, visibleBalance_stripped]
  have current : host.stripped.stack.current? = host.stack.current?.map Frame.stripped :=
    host.stack.current?_stripped
  rw [current]
  cases host.visibleBalance address with
  | none => rfl
  | some amount =>
      cases host.stack.current? with
      | none => rfl
      | some frame => exact congrArg (Prod.mk _) (host.lend_stripped _)

lemma setSlot_stripped (address : Address) (key value : Word) :
    host.stripped.setSlot address key value
      = ((host.setSlot address key value).1, (host.setSlot address key value).2.stripped) := by
  have current : host.stripped.stack.current? = host.stack.current?.map Frame.stripped :=
    host.stack.current?_stripped
  have slot : host.stripped.slot address key = host.slot address key :=
    host.stack.slot_stripped host.store address key
  have below : host.stripped.stack.touchesBelow address = host.stack.touchesBelow address :=
    host.stack.touchesBelow_stripped address
  rw [setSlot, setSlot, current]
  cases host.stack.current? with
  | none => rfl
  | some frame =>
      simp only [Option.map_some, slot, below, modifyDiff_stripped]
      rfl

lemma withHeir_stripped (address beneficiary : Address) :
    host.stripped.withHeir address beneficiary = (host.withHeir address beneficiary).stripped := by
  have seen : host.stripped.stack.isDestroyed address = host.stack.isDestroyed address :=
    host.stack.isDestroyed_stripped address
  rw [withHeir, withHeir, seen]
  split_ifs <;> rfl

/-- A destruction is the first one that a running call can see, or it is not. -/
lemma destroy_first (address beneficiary : Address) :
    (host.destroy address beneficiary).1
      = (!host.stack.isDestroyed address && host.stack.current?.isSome) := by
  cases seen : host.stack.isDestroyed address <;> cases current : host.stack.current? <;>
    simp [destroy, seen, current]

lemma destroy_stripped (address beneficiary : Address) :
    host.stripped.destroy address beneficiary
      = ((host.destroy address beneficiary).1, (host.destroy address beneficiary).2.stripped) := by
  have seen : host.stripped.stack.isDestroyed address = host.stack.isDestroyed address :=
    host.stack.isDestroyed_stripped address
  have current : host.stripped.stack.current? = host.stack.current?.map Frame.stripped :=
    host.stack.current?_stripped
  refine Prod.ext ?_ ?_
  · rw [destroy_first, destroy_first, seen, current, Option.isSome_map]
  · have recorded : Query.record host.stripped (.destroy address beneficiary)
        = Query.record host (.destroy address beneficiary) := by
      funext diff
      simp only [Query.record, seen]
      rfl
    rw [destroy_host, destroy_host, withHeir_stripped, recorded, modifyDiff_stripped]

lemma log_stripped (address : Address) (data : Bytes) (topics : List Word) :
    host.stripped.log address data topics
      = ((host.log address data topics).1, (host.log address data topics).2.stripped) := by
  rw [log, log]
  cases LogEntry.make address data topics with
  | ok entry => exact congrArg (Prod.mk _) (host.modifyDiff_stripped _)
  | error fault => rfl

/-- **A question is answered alike without messages and limit.** -/
theorem answer_stripped (query : Query) :
    host.stripped.answer query
      = ((host.answer query).1, (host.answer query).2.stripped) := by
  cases query with
  | accountExists address =>
      simp only [answer, accountExists, stripped, CallStack.touches_stripped]
  | accessAccount address =>
      simp only [answer, accessAccount, modifyDiff_stripped]
      simp only [stripped, CallStack.isWarmAccount_stripped]
  | accessSlot address key =>
      simp only [answer, accessSlot, modifyDiff_stripped]
      simp only [stripped, CallStack.isWarmSlot_stripped]
  | slot address key => simp only [answer, slot, stripped, CallStack.slot_stripped]
  | setSlot address key value => exact host.setSlot_stripped address key value
  | balance address => exact host.balance_stripped address
  | code address => exact congrArg (Prod.mk _) (host.lend_stripped _)
  | destroy address beneficiary => exact host.destroy_stripped address beneficiary
  | log address data topics => exact host.log_stripped address data topics
  | codeSize | codeHash | txContext | blockHash => rfl

/-! ## Calls -/

lemma enter_stripped (message : CallMessage) :
    (host.enter message).stripped
      = host.stripped.enter (.plain Address.zero Address.zero 0) := rfl

lemma leave_stripped (size : ℕ) :
    host.stripped.leave size = ((host.leave size).1, (host.leave size).2.stripped) := by
  have popped : host.stripped.stack.popTo size = ((host.stack.popTo size).1.map Frame.stripped,
      (host.stack.popTo size).2.stripped) := host.stack.popTo_stripped size
  simp only [leave, popped]
  cases (host.stack.popTo size).1 <;> rfl

lemma settle_stripped (outcome : Except Fault Outcome) :
    host.stripped.settle outcome
      = ((host.settle outcome).1, (host.settle outcome).2.stripped) := by
  cases outcome with
  | error fault => rfl
  | ok outcome =>
      simp only [settle]
      split_ifs
      · exact congrArg (Prod.mk _) (host.modifyDiff_stripped _)
      · rfl

/-! ## Hosts that resemble each other -/

namespace Resembles

variable {host other : Host} (resembles : host.Resembles other)

include resembles

lemma stripped_eq : host.stripped = other.stripped := resembles

lemma store : host.store = other.store :=
  congrArg (fun host => host.store) resembles.stripped_eq

lemma fault : host.fault = other.fault :=
  congrArg (fun host => host.fault) resembles.stripped_eq

lemma revision : host.settings.revision = other.settings.revision :=
  congrArg (fun host => host.settings.revision) resembles.stripped_eq

lemma size : host.stack.size = other.stack.size := by
  have same := congrArg (fun host => host.stack.size) resembles.stripped_eq
  simpa [stripped] using same

lemma withFault (fault : Option Fault) :
    Resembles { host with fault } { other with fault } := by
  have same := congrArg (fun host : Host => { host with fault }) resembles.stripped_eq
  exact same

lemma answer (query : Query) :
    (host.answer query).1 = (other.answer query).1 ∧
      (host.answer query).2.Resembles (other.answer query).2 := by
  have same := congrArg (fun host => host.answer query) resembles.stripped_eq
  simp only [answer_stripped] at same
  exact Prod.mk.inj same

lemma enter (message message' : CallMessage) :
    (host.enter message).Resembles (other.enter message') := by
  rw [Resembles, enter_stripped, enter_stripped, resembles.stripped_eq]

lemma leave (size : ℕ) :
    (host.leave size).1 = (other.leave size).1 ∧
      (host.leave size).2.Resembles (other.leave size).2 := by
  have same := congrArg (fun host => host.leave size) resembles.stripped_eq
  simp only [leave_stripped] at same
  exact Prod.mk.inj same

lemma settle (outcome : Except Fault Outcome) :
    (host.settle outcome).1 = (other.settle outcome).1 ∧
      (host.settle outcome).2.Resembles (other.settle outcome).2 := by
  have same := congrArg (fun host => host.settle outcome) resembles.stripped_eq
  simp only [settle_stripped] at same
  exact Prod.mk.inj same

end Resembles

end Host

end ContractHost
