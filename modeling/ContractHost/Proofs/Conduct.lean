import ContractHost.Machine.Engine
import ContractHost.Proofs.Header
import ContractHost.Proofs.Law

/-!
# The conduct of the machine

Whatever code it is given, the machine behaves: it ends in one of eight ways (`outcomes`), leaves
no log that a host would refuse, changes no account but the destination of its message, and makes
plain calls that can be read and have the flags of that message.  In a static call it only reads.
This is a law (`conduct`), and it is shown instruction by instruction.  The one exception is a
message whose gas is the smallest number, which the machine may die of; it never sends one itself.

* `Sound` — a computation ends in one of the eight ways or with a value that is good.
* `Step.Keeps` — what an instruction may do, and the gas with which it goes on.
* **`execute_keeps`** — one lemma for all instructions, a case for each.
* **`start_keeps`** — every run of the machine.
-/

namespace ContractHost

/-- The question changes nothing. -/
def Query.Reads : Query → Prop
  | .accountExists _ | .slot _ _ | .balance _ | .codeSize _ | .codeHash _ | .code _ | .txContext
  | .blockHash _ => True
  | .accessAccount _ | .accessSlot _ _ | .setSlot _ _ _ | .destroy _ _ | .log _ _ _ => False

/-- The account that the question changes itself; the heir of a destroyed one is not meant. -/
def Query.subject? : Query → Option Address
  | .setSlot address _ _ | .destroy address _ | .log address _ _ => some address
  | _ => none

/-- The answer does not refuse anything. -/
def Query.Granted : (query : Query) → query.Answer → Prop
  | .log _ _ _, answer => answer = .ok ()
  | _, _ => True

namespace Machine

/-- How a run of the machine may end. -/
def outcomes : List Status :=
  [.success, .failure, .revert, .outOfGas, .undefinedInstruction, .stackOverflow, .stackUnderflow,
    .staticModeViolation]

/-- What the machine does on a message. -/
def conduct (message : CallMessage) : Law where
  answered query answer := (message.isStatic = true → query.Reads) ∧ query.Granted answer ∧
    (query.subject? = none ∨ query.subject? = some message.destination)
  calling sent := ∃ nested input, CallMessage.unpack sent = .ok (nested, input) ∧
    nested.flags = message.flags ∧ nested.gas ≠ Int64.minValue ∧ nested.kind = .call
  ended ending := (∃ result : Result, ending = .finished result.encode ∧ result.status ∈ outcomes) ∨
    message.gas = Int64.minValue

/-! ## Computations that end well -/

/-- A good value, or one of the eight ways to end. -/
def Sound {α : Type} (good : α → Prop) : Except Status α → Prop
  | .ok value => good value
  | .error status => status ∈ outcomes

section Sound

variable {α β : Type} {good : α → Prop} {better : β → Prop}

lemma Sound.bind {computation : Except Status α} {rest : α → Except Status β}
    (first : Sound good computation) (second : ∀ value, good value → Sound better (rest value)) :
    Sound better (computation >>= rest) := by
  cases computation with
  | ok value => exact second value first
  | error status => exact first

end Sound

section State

variable {state : State} {gas : Int64}

lemma push_sound (charged : state.gasLeft = gas) (word : Word) :
    Sound (fun next : State => next.gasLeft = gas) (state.push word) := by
  rw [State.push]
  split_ifs
  · exact charged
  · exact (by decide : Status.stackOverflow ∈ outcomes)

lemma pop_sound (charged : state.gasLeft = gas) :
    Sound (fun popped : Word × State => popped.2.gasLeft = gas) state.pop := by
  rw [State.pop]
  split
  · exact charged
  · exact (by decide : Status.stackUnderflow ∈ outcomes)

lemma pop32_sound (charged : state.gasLeft = gas) :
    Sound (fun popped : UInt32 × State => popped.2.gasLeft = gas) state.pop32 := by
  have popped := pop_sound charged
  rw [State.pop32]
  cases taken : state.pop <;> rw [taken] at popped <;> exact popped

lemma popMany_sound (charged : state.gasLeft = gas) (count : ℕ) :
    Sound (fun popped : List Word × State => popped.1.length = count ∧ popped.2.gasLeft = gas)
      (state.popMany count) := by
  induction count generalizing state with
  | zero => exact ⟨rfl, charged⟩
  | succ count ih =>
      refine (pop_sound charged).bind ?_
      rintro ⟨word, rest⟩ charged
      refine (ih charged).bind ?_
      rintro ⟨words, rest⟩ ⟨length, charged⟩
      exact ⟨by rw [List.length_cons, length], charged⟩

lemma expand_sound (charged : state.gasLeft = gas) (offset count : UInt32) :
    Sound (fun next : State => next.gasLeft = gas) (state.expand offset count) := by
  rw [State.expand, Memory.expand]
  split_ifs
  · exact charged
  · exact (by decide : Status.failure ∈ outcomes)

lemma store_sound (memory : Memory) (offset : UInt32) (word : Word) :
    Sound (fun _ => True) (memory.store offset word) := by
  rw [Memory.store]
  split_ifs
  · trivial
  · exact (by decide : Status.failure ∈ outcomes)

end State

lemma requireMutable_sound (setting : Setting) :
    Sound (fun _ => ¬ setting.message.isStatic = true) (requireMutable setting) := by
  rw [requireMutable]
  split_ifs with still
  · exact (by decide : Status.staticModeViolation ∈ outcomes)
  · exact still

/-- Thirty-two bytes or fewer are a word. -/
lemma balanceWord_sound {answer : Bytes} (short : answer.length ≤ 32) :
    Sound (fun _ => True) (balanceWord answer) := by
  simp only [balanceWord, Word.ofBytes, dif_pos short]
  trivial

lemma blockNumber32_sound (context : TxContext) :
    Sound (fun _ => True) (blockNumber32 context.encode) := by
  rw [blockNumber32, TxContext.decode_answer]
  trivial

/-! ## Steps -/

/-- The step keeps the law until it ends the run or moves on to a state with this gas. -/
def Step.Keeps (law : Law) (gas : Int64) : Step → Prop
  | next state => state.gasLeft = gas
  | halt result => law.ended (.finished result.encode)
  | ask query after => ∀ host : Host,
    law.answered query (host.answer query).1 ∧ (after (host.answer query).1).Keeps law gas
  | call sent after => law.calling sent ∧ ∀ reply, (after reply).Keeps law gas

section Step

variable {law : Law} {message : CallMessage} {gas : Int64}

lemma Step.andThen_keeps {step : Step} (keeps : step.Keeps law gas)
    {rest : State → Program Unit}
    (goes : ∀ state : State, state.gasLeft = gas → (rest state).Keeps law) :
    (step.andThen rest).Keeps law := by
  induction step with
  | next state => exact goes state keeps
  | halt result => exact keeps
  | ask query after ih => exact fun host => ⟨(keeps host).1, ih _ (keeps host).2⟩
  | call sent after ih => exact ⟨keeps.1, fun _ reply => ih reply (keeps.2 reply)⟩

lemma conduct_ended {result : Result} (ordinary : result.status ∈ outcomes) :
    (conduct message).ended (.finished result.encode) :=
  .inl ⟨result, rfl, ordinary⟩

lemma Step.attempt_keeps {step : Except Status Step}
    (sound : Sound (Step.Keeps (conduct message) gas) step) :
    (Step.attempt step).Keeps (conduct message) gas := by
  cases step with
  | ok step => exact sound
  | error status => exact conduct_ended sound

lemma Step.proceed_keeps {state : Except Status State}
    (sound : Sound (fun next : State => next.gasLeft = gas) state) :
    (Step.proceed state).Keeps (conduct message) gas := by
  cases state with
  | ok state => exact sound
  | error status => exact conduct_ended sound

end Step

/-! ## Instructions -/

/-- A log entry can have as many topics as the instruction names. -/
def Instruction.TopicsFit : Instruction → Prop
  | .log topicCount => topicCount ≤ LogEntry.topicLimit
  | _ => True

lemma Instruction.ofOpcode_topicsFit (opcode : UInt8) : (ofOpcode opcode).TopicsFit := by
  unfold ofOpcode
  split <;> simp [TopicsFit, LogEntry.topicLimit]

/-- No byte of code names more than four topics. -/
lemma Instruction.fetch_topicsFit (code : Array UInt8) (place : ℕ) (inside : place < code.size) :
    (fetch code place inside).1.TopicsFit := by
  simp only [fetch]
  split_ifs
  · exact ofOpcode_topicsFit _
  · trivial

section Instructions

variable {setting : Setting} {state : State} {gas : Int64}

/-- The host answers a question about a balance with a word or with nothing. -/
lemma length_balance_le (host : Host) (address : Address) :
    (host.balance address).1.length ≤ 32 := by
  rw [Host.balance]
  split <;> simp

lemma executeLog_sound (charged : state.gasLeft = gas) {topicCount : ℕ}
    (few : topicCount ≤ LogEntry.topicLimit) :
    Sound (Step.Keeps (conduct setting.message) gas) (executeLog setting state topicCount) := by
  refine (requireMutable_sound setting).bind fun _ mutable => ?_
  refine (pop32_sound charged).bind ?_
  rintro ⟨offset, state⟩ charged
  refine (pop32_sound charged).bind ?_
  rintro ⟨count, state⟩ charged
  refine (popMany_sound charged topicCount).bind ?_
  rintro ⟨topics, state⟩ ⟨length, charged⟩
  refine (expand_sound charged offset count).bind fun state charged => ?_
  intro host
  have accepted : (host.log setting.message.destination (state.memory.region offset count) topics).1
      = .ok () := by
    have short : ¬ LogEntry.topicLimit < topics.length := by
      rw [length]
      exact not_lt.2 few
    rw [Host.log, LogEntry.make, if_neg short]
  simp only [Host.answer, accepted]
  exact ⟨⟨fun still => absurd still mutable, rfl, .inr rfl⟩, charged⟩

/-- The gas of a nested call has 32 bits, and is never the smallest number of 64. -/
lemma gas_ne_minValue (gas32 : UInt32) : Int64.ofNat gas32.toNat ≠ Int64.minValue := by
  intro least
  have bound := gas32.toNat_lt
  have same := congrArg Int64.toInt least
  rw [Int64.toInt_ofNat_of_lt (by omega), Int64.toInt_minValue] at same
  omega

lemma executeCall_sound (charged : state.gasLeft = gas) :
    Sound (Step.Keeps (conduct setting.message) gas) (executeCall setting state) := by
  refine (pop32_sound charged).bind ?_
  rintro ⟨gas32, state⟩ charged
  refine (pop_sound charged).bind ?_
  rintro ⟨destination, state⟩ charged
  refine (pop_sound charged).bind ?_
  rintro ⟨value, state⟩ charged
  refine (pop32_sound charged).bind ?_
  rintro ⟨inputOffset, state⟩ charged
  refine (pop32_sound charged).bind ?_
  rintro ⟨inputSize, state⟩ charged
  refine (pop32_sound charged).bind ?_
  rintro ⟨outputOffset, state⟩ charged
  refine (pop32_sound charged).bind ?_
  rintro ⟨outputSize, state⟩ charged
  dsimp only
  -- a static call sends no value
  split_ifs
  · exact (by decide : Status.staticModeViolation ∈ outcomes)
  refine (expand_sound charged inputOffset inputSize).bind fun state charged => ?_
  refine (expand_sound charged outputOffset outputSize).bind fun state charged => ?_
  -- what is sent is what was packed, with the flags of the message that runs
  split
  · exact (by decide : Status.failure ∈ outcomes)
  · next packed packs =>
      refine ⟨⟨_, _, CallMessage.unpack_packed packs, rfl, gas_ne_minValue gas32, rfl⟩,
        fun reply => ?_⟩
      exact Step.proceed_keeps (push_sound charged _)

/-- The region under the two words on top is read, or the run ends well. -/
lemma popRegion_sound (charged : state.gasLeft = gas) :
    Sound (fun popped : Bytes × State => popped.2.gasLeft = gas) (popRegion state) := by
  refine (pop32_sound charged).bind ?_
  rintro ⟨offset, state⟩ charged
  refine (pop32_sound charged).bind ?_
  rintro ⟨count, state⟩ charged
  exact (expand_sound charged offset count).bind fun state charged => charged

/-- **Every instruction keeps the law,** if the topics that it names are not too many. -/
theorem execute_keeps (charged : state.gasLeft = gas) {instruction : Instruction}
    (fit : instruction.TopicsFit) :
    (execute setting state instruction).Keeps (conduct setting.message) gas := by
  cases instruction with
  | stop => exact conduct_ended (by decide : Status.success ∈ outcomes)
  | undefined => exact conduct_ended (by decide : Status.undefinedInstruction ∈ outcomes)
  | address => exact Step.proceed_keeps (push_sound charged _)
  | push word => exact Step.proceed_keeps (push_sound charged word)
  | memorySize => exact Step.proceed_keeps (push_sound charged _)
  | add =>
      refine Step.proceed_keeps ((pop32_sound charged).bind ?_)
      rintro ⟨a, state⟩ charged
      refine (pop32_sound charged).bind ?_
      rintro ⟨b, state⟩ charged
      exact push_sound charged _
  | callDataLoad =>
      refine Step.proceed_keeps ((pop32_sound charged).bind ?_)
      rintro ⟨offset, state⟩ charged
      exact push_sound charged _
  | duplicate =>
      refine Step.proceed_keeps ((pop_sound charged).bind ?_)
      rintro ⟨word, state⟩ charged
      exact (push_sound charged word).bind fun state charged => push_sound charged word
  | memoryStore =>
      refine Step.proceed_keeps ((pop32_sound charged).bind ?_)
      rintro ⟨offset, state⟩ charged
      refine (pop_sound charged).bind ?_
      rintro ⟨word, state⟩ charged
      exact (store_sound state.memory offset word).bind fun memory _ => charged
  | balance =>
      refine Step.attempt_keeps ((pop_sound charged).bind ?_)
      rintro ⟨word, state⟩ charged host
      refine ⟨⟨fun _ => trivial, trivial, .inl rfl⟩, Step.proceed_keeps ?_⟩
      exact (balanceWord_sound (length_balance_le host _)).bind fun balance _ =>
        push_sound charged balance
  | blockNumber =>
      intro host
      refine ⟨⟨fun _ => trivial, trivial, .inl rfl⟩, Step.proceed_keeps ?_⟩
      exact (blockNumber32_sound host.txContext).bind fun number _ => push_sound charged _
  | slotLoad =>
      refine Step.attempt_keeps ((pop_sound charged).bind ?_)
      rintro ⟨key, state⟩ charged host
      exact ⟨⟨fun _ => trivial, trivial, .inl rfl⟩, Step.proceed_keeps (push_sound charged _)⟩
  | slotStore =>
      refine Step.attempt_keeps ((requireMutable_sound setting).bind fun _ mutable => ?_)
      refine (pop_sound charged).bind ?_
      rintro ⟨key, state⟩ charged
      refine (pop_sound charged).bind ?_
      rintro ⟨value, state⟩ charged host
      exact ⟨⟨fun still => absurd still mutable, trivial, .inr rfl⟩, charged⟩
  | log topicCount => exact Step.attempt_keeps (executeLog_sound charged fit)
  | call => exact Step.attempt_keeps (executeCall_sound charged)
  | returnData =>
      refine Step.attempt_keeps ((popRegion_sound charged).bind fun _ _ => ?_)
      exact conduct_ended (by decide : Status.success ∈ outcomes)
  | revert =>
      refine Step.attempt_keeps ?_
      split_ifs
      · exact (by decide : Status.undefinedInstruction ∈ outcomes)
      · refine (popRegion_sound charged).bind fun _ _ => ?_
        exact conduct_ended (by decide : Status.revert ∈ outcomes)
  | selfDestruct =>
      refine Step.attempt_keeps ((requireMutable_sound setting).bind fun _ mutable => ?_)
      refine (pop_sound charged).bind ?_
      rintro ⟨word, state⟩ charged host
      refine ⟨⟨fun still => absurd still mutable, trivial, .inr rfl⟩, ?_⟩
      exact conduct_ended (by decide : Status.success ∈ outcomes)

end Instructions

/-! ## Runs -/

/-- **Every run keeps the law.**  It comes down to the smallest number only if it starts with it,
since gas that was charged for an instruction is not negative. -/
theorem run_keeps (setting : Setting) (code : Array UInt8) (limit place : ℕ) (state : State)
    (least : state.gasLeft = Int64.minValue → setting.message.gas = Int64.minValue) :
    (run setting code limit place state).Keeps (conduct setting.message) := by
  induction limit generalizing place state with
  | zero => exact conduct_ended (by decide : Status.success ∈ outcomes)
  | succ limit ih =>
      unfold run
      split_ifs with inside smallest spent
      · exact .inr (least smallest)
      · exact conduct_ended (by decide : Status.outOfGas ∈ outcomes)
      · refine Step.andThen_keeps
          (execute_keeps rfl (Instruction.fetch_topicsFit code place inside)) fun next charged => ?_
        have left : next.gasLeft = state.gasLeft - 1 := charged
        refine ih _ next fun smallest => absurd ?_ spent
        rw [← left, smallest]
        decide
      · exact conduct_ended (by decide : Status.success ∈ outcomes)

/-- **Whatever the code, the machine keeps the law of the message** that it is handed. -/
theorem start_keeps {message : CallMessage} {input handed : Bytes}
    (packs : message.pack input = .ok handed) (revision : Revision) (code : Bytes) :
    (start revision handed code).Keeps (conduct message) := by
  rw [start, CallMessage.unpack_packed packs]
  exact run_keeps ⟨revision, message.withInput input.length, input⟩ code.toArray code.length 0
    { gasLeft := message.gas } id

end Machine

/-- A store with one account, whose code calls the account again and writes the answer into its slot
seven. -/
def selfCaller : Store :=
  Store.empty.deploy Address.zero
    [0x60, 0, 0x60, 0, 0x60, 0, 0x60, 0, 0x60, 0, 0x30, 0x60, 100, 0xf1, 0x60, 7, 0x55]

end ContractHost
