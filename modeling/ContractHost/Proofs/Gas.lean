import ContractHost.Machine.Engine
import Mathlib.Tactic

/-!
# Gas is carried along

No instruction looks at the gas that is left.  From two states that differ in nothing else, an
instruction asks the same questions, makes the same calls and arrives at two states that again
differ in nothing else; it only ever gives the gas back, when it ends the run with a success or a
revert.  A failure loses all gas.

* `Alike` — two computations that come to the same, up to a relation of their values.
* `Step.Carries` — two steps that come to the same but for gas.
* **`execute_carries`** — one lemma for all instructions, a case for each.
* `Step.Carries.andThen_congr` — what follows an instruction starts from the gas that it carried.
-/

namespace ContractHost

/-- An instruction that ends a run with this status gives no gas back.  Running out of gas is not
the doing of an instruction. -/
def Status.Failed (status : Status) : Prop :=
  status ≠ .success ∧ status ≠ .revert ∧ status ≠ .outOfGas

instance (status : Status) : Decidable status.Failed := inferInstanceAs (Decidable (_ ∧ _))

/-- From any gas but the smallest number one unit can be taken away. -/
lemma Int64.toInt_sub_one {gas : Int64} (least : gas ≠ Int64.minValue) :
    (gas - 1).toInt = gas.toInt - 1 := by
  have lower := gas.le_toInt
  have upper := gas.toInt_lt
  have different : gas.toInt ≠ -2 ^ 63 := by
    intro same
    exact least (Int64.toInt_inj.1 (same.trans Int64.toInt_minValue.symm))
  have one : (1 : Int64).toInt = 1 := by decide
  rw [Int64.toInt_sub, one, Int.bmod_eq_of_le (by omega) (by omega)]

/-- The smallest number is a debt. -/
lemma Int64.ne_minValue {gas : Int64} (funded : 0 ≤ gas) : gas ≠ Int64.minValue := by
  rintro rfl
  exact absurd funded (by decide)

namespace Machine

/-- The same state with other gas. -/
def State.withGas (state : State) (gas : Int64) : State := { state with gasLeft := gas }

@[simp] lemma State.memory_withGas (state : State) (gas : Int64) :
    (state.withGas gas).memory = state.memory := rfl

/-! ## Computations -/

/-- Both computations fail with the same status or arrive at values that are related. -/
inductive Alike {α β : Type} (related : α → β → Prop) : Except Status α → Except Status β → Prop
  | ok {value : α} {value' : β} (here : related value value') :
      Alike related (.ok value) (.ok value')
  | error {status : Status} (failed : status.Failed) : Alike related (.error status) (.error status)

lemma Alike.bind {α β α' β' : Type} {related : α → α' → Prop} {related' : β → β' → Prop}
    {computation : Except Status α} {computation' : Except Status α'}
    {next : α → Except Status β} {next' : α' → Except Status β'}
    (first : Alike related computation computation')
    (second : ∀ value value', related value value' → Alike related' (next value) (next' value')) :
    Alike related' (computation >>= next) (computation' >>= next') := by
  cases first with
  | ok here => exact second _ _ here
  | error failed => exact Alike.error failed

/-- The same state but for gas. -/
def Carried (gas gas' : Int64) (state state' : State) : Prop :=
  ∃ same : State, state = same.withGas gas ∧ state' = same.withGas gas'

/-- The same value, and the same state but for gas. -/
def CarriedWith {α : Type} (gas gas' : Int64) (taken taken' : α × State) : Prop :=
  ∃ (value : α) (same : State),
    taken = (value, same.withGas gas) ∧ taken' = (value, same.withGas gas')

section State

variable {gas gas' : Int64}

lemma pop_alike (state : State) :
    Alike (CarriedWith gas gas') (state.withGas gas).pop (state.withGas gas').pop := by
  rw [State.pop, State.pop, State.withGas, State.withGas]
  cases state.stack with
  | nil => exact .error (by decide)
  | cons word below => exact .ok ⟨word, { state with stack := below }, rfl, rfl⟩

lemma State.pop32_eq_bind (state : State) :
    state.pop32 = state.pop >>= fun popped => .ok (popped.1.low32, popped.2) := by
  rw [State.pop32]
  cases state.pop <;> rfl

lemma pop32_alike (state : State) :
    Alike (CarriedWith gas gas') (state.withGas gas).pop32 (state.withGas gas').pop32 := by
  rw [State.pop32_eq_bind, State.pop32_eq_bind]
  refine (pop_alike state).bind ?_
  rintro _ _ ⟨word, state, rfl, rfl⟩
  exact .ok ⟨word.low32, state, rfl, rfl⟩

lemma popMany_alike (count : ℕ) (state : State) :
    Alike (CarriedWith gas gas') ((state.withGas gas).popMany count)
      ((state.withGas gas').popMany count) := by
  induction count generalizing state with
  | zero => exact .ok ⟨[], state, rfl, rfl⟩
  | succ count ih =>
      refine (pop_alike state).bind ?_
      rintro _ _ ⟨word, state, rfl, rfl⟩
      refine (ih state).bind ?_
      rintro _ _ ⟨words, state, rfl, rfl⟩
      exact .ok ⟨word :: words, state, rfl, rfl⟩

lemma push_alike (state : State) (word : Word) :
    Alike (Carried gas gas') ((state.withGas gas).push word) ((state.withGas gas').push word) := by
  rw [State.push, State.push, State.withGas, State.withGas]
  split_ifs
  · exact .ok ⟨{ state with stack := word :: state.stack }, rfl, rfl⟩
  · exact .error (by decide)

lemma push32_alike (state : State) (n : UInt32) :
    Alike (Carried gas gas') ((state.withGas gas).push32 n) ((state.withGas gas').push32 n) :=
  push_alike state _

lemma expand_alike (state : State) (offset count : UInt32) :
    Alike (Carried gas gas') ((state.withGas gas).expand offset count)
      ((state.withGas gas').expand offset count) := by
  rw [State.expand, State.expand, State.withGas, State.withGas, Memory.expand]
  split_ifs
  · exact .ok ⟨{ state with memory := { state.memory with size := _ } }, rfl, rfl⟩
  · exact .error (by decide)

/-- The same, with the region of memory that became active. -/
lemma popRegion_alike (state : State) :
    Alike (CarriedWith gas gas') (popRegion (state.withGas gas))
      (popRegion (state.withGas gas')) := by
  refine (pop32_alike state).bind ?_
  rintro _ _ ⟨offset, state, rfl, rfl⟩
  refine (pop32_alike state).bind ?_
  rintro _ _ ⟨count, state, rfl, rfl⟩
  refine (expand_alike state offset count).bind ?_
  rintro _ _ ⟨state, rfl, rfl⟩
  exact .ok ⟨state.memory.region offset count, state, rfl, rfl⟩

end State

lemma requireMutable_alike (setting : Setting) :
    Alike Eq (requireMutable setting) (requireMutable setting) := by
  rw [requireMutable]
  split_ifs
  · exact .error (by decide)
  · exact .ok rfl

lemma balanceWord_alike (answer : Bytes) : Alike Eq (balanceWord answer) (balanceWord answer) := by
  rw [balanceWord]
  split
  · exact .ok rfl
  · exact .error (by decide)

lemma blockNumber32_alike (answer : FixedBytes TxContext.size) :
    Alike Eq (blockNumber32 answer) (blockNumber32 answer) := by
  rw [blockNumber32]
  split
  · exact .ok rfl
  · exact .error (by decide)

lemma store_alike (memory : Memory) (offset : UInt32) (word : Word) :
    Alike Eq (memory.store offset word) (memory.store offset word) := by
  rw [Memory.store]
  split_ifs
  · exact .ok rfl
  · exact .error (by decide)

/-! ## Steps -/

/-- The same step, but that the one carries the first gas along and the other the second. -/
inductive Step.Carries (gas gas' : Int64) : Step → Step → Prop
  | next (state : State) : Carries gas gas' (.next (state.withGas gas)) (.next (state.withGas gas'))
  | success : Carries gas gas' (.halt (Result.success gas)) (.halt (Result.success gas'))
  | revert : Carries gas gas' (.halt (Result.revert gas)) (.halt (Result.revert gas'))
  | failure {status : Status} (failed : status.Failed) :
      Carries gas gas' (.halt (Result.failure status)) (.halt (Result.failure status))
  | ask (query : Query) {after after' : query.Answer → Step}
      (carries : ∀ answer, Carries gas gas' (after answer) (after' answer)) :
      Carries gas gas' (.ask query after) (.ask query after')
  | call (message : Bytes) {after after' : Reply → Step}
      (carries : ∀ reply, Carries gas gas' (after reply) (after' reply)) :
      Carries gas gas' (.call message after) (.call message after')

section Step

variable {gas gas' : Int64}

lemma Step.attempt_carries {α β : Type} {related : α → β → Prop}
    {computation : Except Status α} {computation' : Except Status β}
    {next : α → Except Status Step} {next' : β → Except Status Step}
    (first : Alike related computation computation')
    (second : ∀ value value', related value value' →
      Carries gas gas' (attempt (next value)) (attempt (next' value'))) :
    Carries gas gas' (attempt (computation >>= next)) (attempt (computation' >>= next')) := by
  cases first with
  | ok here => exact second _ _ here
  | error failed => exact .failure failed

lemma Step.proceed_carries {computation computation' : Except Status State}
    (alike : Alike (Carried gas gas') computation computation') :
    Carries gas gas' (proceed computation) (proceed computation') := by
  cases alike with
  | ok here =>
      obtain ⟨state, rfl, rfl⟩ := here
      exact .next state
  | error failed => exact .failure failed

/-- What follows a step starts from the gas that the step carries along. -/
lemma Step.Carries.andThen_congr {step step' : Step} (carries : Carries gas gas step step')
    {rest rest' : State → Program Unit}
    (same : ∀ state : State, state.gasLeft = gas → rest state = rest' state) :
    step.andThen rest = step'.andThen rest' := by
  induction carries with
  | next state => exact same (state.withGas gas) rfl
  | success => rfl
  | revert => rfl
  | failure failed => rfl
  | ask query carries ih => exact congrArg (Program.ask query) (funext ih)
  | call message carries ih =>
      exact congrArg (Program.call () message) (funext fun _ => funext ih)

end Step

/-! ## Instructions -/

section Instructions

variable {setting : Setting} {gas gas' : Int64}

lemma executeLog_carries (state : State) (topicCount : ℕ) :
    Step.Carries gas gas' (Step.attempt (executeLog setting (state.withGas gas) topicCount))
      (Step.attempt (executeLog setting (state.withGas gas') topicCount)) := by
  refine Step.attempt_carries (requireMutable_alike setting) fun _ _ _ => ?_
  refine Step.attempt_carries (pop32_alike state) ?_
  rintro _ _ ⟨offset, state, rfl, rfl⟩
  refine Step.attempt_carries (pop32_alike state) ?_
  rintro _ _ ⟨count, state, rfl, rfl⟩
  refine Step.attempt_carries (popMany_alike topicCount state) ?_
  rintro _ _ ⟨topics, state, rfl, rfl⟩
  refine Step.attempt_carries (expand_alike state offset count) ?_
  rintro _ _ ⟨state, rfl, rfl⟩
  refine .ask _ fun answer => ?_
  cases answer with
  | ok _ => exact .next state
  | error _ => exact .failure (by decide)

lemma executeCall_carries (state : State) :
    Step.Carries gas gas' (Step.attempt (executeCall setting (state.withGas gas)))
      (Step.attempt (executeCall setting (state.withGas gas'))) := by
  refine Step.attempt_carries (pop32_alike state) ?_
  rintro _ _ ⟨gas32, state, rfl, rfl⟩
  refine Step.attempt_carries (pop_alike state) ?_
  rintro _ _ ⟨destination, state, rfl, rfl⟩
  refine Step.attempt_carries (pop_alike state) ?_
  rintro _ _ ⟨value, state, rfl, rfl⟩
  refine Step.attempt_carries (pop32_alike state) ?_
  rintro _ _ ⟨inputOffset, state, rfl, rfl⟩
  refine Step.attempt_carries (pop32_alike state) ?_
  rintro _ _ ⟨inputSize, state, rfl, rfl⟩
  refine Step.attempt_carries (pop32_alike state) ?_
  rintro _ _ ⟨outputOffset, state, rfl, rfl⟩
  refine Step.attempt_carries (pop32_alike state) ?_
  rintro _ _ ⟨outputSize, state, rfl, rfl⟩
  dsimp only
  split_ifs
  · exact .failure (by decide)
  refine Step.attempt_carries (expand_alike state inputOffset inputSize) ?_
  rintro _ _ ⟨state, rfl, rfl⟩
  refine Step.attempt_carries (expand_alike state outputOffset outputSize) ?_
  rintro _ _ ⟨grown, rfl, rfl⟩
  -- the input is the same, so both messages are packed or neither
  simp only [State.memory_withGas]
  generalize CallMessage.pack _ _ = packing
  cases packing with
  | error _ => exact .failure (by decide)
  | ok packed => exact .call packed fun reply => Step.proceed_carries (push32_alike grown _)

/-- **An instruction does the same whatever gas is left.** -/
theorem execute_carries (setting : Setting) (gas gas' : Int64) (state : State)
    (instruction : Instruction) :
    Step.Carries gas gas' (execute setting (state.withGas gas) instruction)
      (execute setting (state.withGas gas') instruction) := by
  cases instruction with
  | stop => exact .success
  | undefined => exact .failure (by decide)
  | push word => exact Step.proceed_carries (push_alike state word)
  | memorySize => exact Step.proceed_carries (push32_alike state _)
  | address => exact Step.proceed_carries (push_alike state _)
  | add =>
      refine Step.proceed_carries ((pop32_alike state).bind ?_)
      rintro _ _ ⟨a, state, rfl, rfl⟩
      refine (pop32_alike state).bind ?_
      rintro _ _ ⟨b, state, rfl, rfl⟩
      exact push32_alike state _
  | callDataLoad =>
      refine Step.proceed_carries ((pop32_alike state).bind ?_)
      rintro _ _ ⟨offset, state, rfl, rfl⟩
      exact push_alike state _
  | duplicate =>
      refine Step.proceed_carries ((pop_alike state).bind ?_)
      rintro _ _ ⟨word, state, rfl, rfl⟩
      refine (push_alike state word).bind ?_
      rintro _ _ ⟨state, rfl, rfl⟩
      exact push_alike state word
  | memoryStore =>
      refine Step.proceed_carries ((pop32_alike state).bind ?_)
      rintro _ _ ⟨offset, state, rfl, rfl⟩
      refine (pop_alike state).bind ?_
      rintro _ _ ⟨word, state, rfl, rfl⟩
      refine (store_alike state.memory offset word).bind ?_
      rintro memory _ rfl
      exact .ok ⟨{ state with memory }, rfl, rfl⟩
  | balance =>
      refine Step.attempt_carries (pop_alike state) ?_
      rintro _ _ ⟨word, state, rfl, rfl⟩
      refine .ask _ fun answer => Step.proceed_carries ((balanceWord_alike answer).bind ?_)
      rintro balance _ rfl
      exact push_alike state balance
  | blockNumber =>
      refine .ask _ fun answer => Step.proceed_carries ((blockNumber32_alike answer).bind ?_)
      rintro number _ rfl
      exact push32_alike state number
  | slotLoad =>
      refine Step.attempt_carries (pop_alike state) ?_
      rintro _ _ ⟨key, state, rfl, rfl⟩
      exact .ask _ fun value => Step.proceed_carries (push_alike state value)
  | slotStore =>
      refine Step.attempt_carries (requireMutable_alike setting) fun _ _ _ => ?_
      refine Step.attempt_carries (pop_alike state) ?_
      rintro _ _ ⟨key, state, rfl, rfl⟩
      refine Step.attempt_carries (pop_alike state) ?_
      rintro _ _ ⟨value, state, rfl, rfl⟩
      exact .ask _ fun _ => .next state
  | log topicCount => exact executeLog_carries state topicCount
  | call => exact executeCall_carries state
  | returnData =>
      refine Step.attempt_carries (popRegion_alike state) ?_
      rintro _ _ ⟨region, state, rfl, rfl⟩
      exact .success
  | revert =>
      rw [execute, execute]
      cases setting.revision.definesRevert with
      | false => exact .failure (by decide)
      | true =>
          refine Step.attempt_carries (popRegion_alike state) ?_
          rintro _ _ ⟨region, state, rfl, rfl⟩
          exact .revert
  | selfDestruct =>
      refine Step.attempt_carries (requireMutable_alike setting) fun _ _ _ => ?_
      refine Step.attempt_carries (pop_alike state) ?_
      rintro _ _ ⟨word, state, rfl, rfl⟩
      exact .ask _ fun _ => .success

end Instructions

end Machine

end ContractHost
