import ContractHost.Proofs.GuardedMachine
import ContractHost.Proofs.Run

/-!
# The machine is total

Under guards the machine does what it does without them, and no guard is ever in its way.  Both are
shown at once, by walking through the two machines side by side: what the one arrives at tells what
the other arrives at, and that the state is still within its bounds.

* `Guarded.Follows` — a computation under guards against one without, up to a relation of what the
  two arrive at.  `Guarded.Follows.bind` takes both apart.
* `Guarded.FollowsStep` — the same for what an instruction does.
* **`Guarded.execute_follows`** — one lemma for all instructions, a case for each.
* **`Guarded.loop_follows`** — every run from some place on, by induction on what is left of it.
* **`start_total`** — the run on a packed message, with any host.
-/

namespace ContractHost

namespace Machine

/-- The machine can go on from the state with this gas. -/
structure State.Ready (gas : Int64) (state : State) : Prop where
  bounded : state.Bounded
  charged : state.gasLeft = gas

namespace Guarded

variable {α β α' β' : Type}

/-! ## Computations side by side -/

/-- Both computations fail with the same status or arrive at values that are related, and the one
under guards keeps what a computation has to keep. -/
structure Follows (related : State → Prop → α → β → Prop) (computation : Guarded α)
    (plain : Except Status β) (current : State) (overlong : Prop) : Prop where
  same : ∀ (rest : α → Program Unit) (rest' : β → Program Unit),
    (∀ current overlong value value', related current overlong value value' →
      rest value = rest' value') →
    computation.andThen rest = (ofExcept plain).andThen rest'
  kept : computation.Kept
    (fun current overlong value => ∃ value', related current overlong value value') current overlong

section Follows

variable {related : State → Prop → α → β → Prop} {related' : State → Prop → α' → β' → Prop}
  {computation : Guarded α} {plain : Except Status β} {current : State} {overlong : Prop}

lemma Follows.done {value : α} {value' : β} (here : related current overlong value value') :
    Follows related (.done value) (.ok value') current overlong where
  same _ _ agree := agree current overlong value value' here
  kept := ⟨value', here⟩

lemma Follows.fail {status : Status} (ordinary : status = .internalError → overlong) :
    Follows related (.fail status) (.error status) current overlong where
  same _ _ _ := rfl
  kept := ordinary

lemma Follows.pass {state : State} (bounded : state.Bounded)
    (grown : current.memory.size ≤ state.memory.size)
    (follows : Follows related computation plain state overlong) :
    Follows related (.pass state computation) plain current overlong where
  same := follows.same
  kept := ⟨bounded, grown, follows.kept⟩

lemma Follows.bind {next : α → Guarded α'} {next' : β → Except Status β'}
    (first : Follows related computation plain current overlong)
    (second : ∀ current overlong value value', related current overlong value value' →
      Follows related' (next value) (next' value') current overlong) :
    Follows related' (computation >>= next) (plain >>= next') current overlong where
  same rest rest' agree := by
    rw [andThen_bind, first.same _ (fun value' => (ofExcept (next' value')).andThen rest')]
    · cases plain <;> rfl
    · intro current overlong value value' here
      exact (second current overlong value value' here).same rest rest' agree
  kept := by
    refine first.kept.bind ?_
    rintro current overlong value ⟨value', here⟩
    exact (second current overlong value value' here).kept

end Follows

/-! ## Stack and memory -/

/-- Both computations arrive at the same state. -/
def AtState (gas : Int64) (current : State) (_ : Prop) (state state' : State) : Prop :=
  state = state' ∧ state' = current ∧ state'.Ready gas

/-- Both computations arrive at the same state with the same value. -/
def WithState (gas : Int64) (current : State) (_ : Prop) (taken taken' : α × State) : Prop :=
  taken = taken' ∧ taken'.2 = current ∧ taken'.2.Ready gas

/-- The one computation also has the bytes of a region of memory. -/
def WithRegion (gas : Int64) (offset count : UInt32) (current : State) (_ : Prop)
    (taken : Bytes × State) (state : State) : Prop :=
  taken = (state.memory.region offset count, state) ∧ state = current ∧ state.Ready gas

section State

variable {state : State} {gas : Int64} {overlong : Prop}

lemma pop_follows (ready : state.Ready gas) :
    Follows (WithState gas) (pop state) state.pop state overlong := by
  rw [pop, State.pop]
  have bounded := ready.bounded.stack
  cases stack : state.stack with
  | nil => exact Follows.fail (by rintro ⟨⟩)
  | cons word below =>
      rw [stack, List.length_cons] at bounded
      have ready : State.Ready gas { state with stack := below } :=
        ⟨⟨Nat.le_of_succ_le bounded, ready.bounded.size, ready.bounded.blank⟩, ready.charged⟩
      exact Follows.pass ready.bounded le_rfl (Follows.done ⟨rfl, rfl, ready⟩)

lemma pop32_follows (ready : state.Ready gas) :
    Follows (WithState gas) (pop32 state) state.pop32 state overlong := by
  rw [pop32, State.pop32_eq_bind]
  refine (pop_follows ready).bind ?_
  rintro current overlong _ ⟨word, state⟩ ⟨rfl, rfl, ready⟩
  dsimp only
  rw [low32_eq]
  exact Follows.done ⟨rfl, rfl, ready⟩

lemma popMany_follows (ready : state.Ready gas) (count : ℕ) :
    Follows (WithState gas) (popMany count state) (state.popMany count) state overlong := by
  induction count generalizing state overlong with
  | zero => exact Follows.done ⟨rfl, rfl, ready⟩
  | succ count ih =>
      refine (pop_follows ready).bind ?_
      rintro current overlong _ ⟨word, state⟩ ⟨rfl, rfl, ready⟩
      refine (ih ready).bind ?_
      rintro current overlong _ ⟨words, state⟩ ⟨rfl, rfl, ready⟩
      exact Follows.done ⟨rfl, rfl, ready⟩

lemma push_follows (ready : state.Ready gas) (word : Word) :
    Follows (AtState gas) (push state word) (state.push word) state overlong := by
  rw [push, State.push]
  split_ifs with room
  · have ready : State.Ready gas { state with stack := word :: state.stack } :=
      ⟨⟨room, ready.bounded.size, ready.bounded.blank⟩, ready.charged⟩
    exact Follows.pass ready.bounded le_rfl (Follows.done ⟨rfl, rfl, ready⟩)
  · exact Follows.fail (by rintro ⟨⟩)

lemma push32_follows (ready : state.Ready gas) (n : UInt32) :
    Follows (AtState gas) (push32 state n) (state.push32 n) state overlong := by
  rw [push32, word32_eq]
  exact push_follows ready _

/-- Growing leaves the bytes alone, so memory is blank behind its new size as well. -/
lemma ready_grow (ready : state.Ready gas) {stop : ℕ} (inside : stop ≤ memoryLimit) :
    (grow state stop).Ready gas := by
  refine ⟨⟨ready.bounded.stack, max_le ready.bounded.size inside, ?_⟩, ready.charged⟩
  intro byte member
  refine ready.bounded.blank byte ?_
  rw [grow, ← Nat.add_sub_cancel' (le_max_left state.memory.size stop), ← List.drop_drop] at member
  exact List.mem_of_mem_drop member

lemma expand_inside {offset count : UInt32} (inside : offset.toNat + count.toNat ≤ memoryLimit) :
    expand state offset count
      = pass (grow state (offset.toNat + count.toNat))
          (done (state.memory.region offset count, grow state (offset.toNat + count.toNat))) := by
  have small : offset.toNat + count.toNat < placeLimit :=
    inside.trans_lt (by decide : memoryLimit < placeLimit)
  have size : state.memory.bytes.toList.length = memoryLimit := FixedBytes.length_toList _
  have region : (state.memory.bytes.toList.take (offset.toNat + count.toNat)).drop offset.toNat
      = state.memory.region offset count := by
    rw [Memory.region, List.drop_take, Nat.add_sub_cancel_left]
  rw [expand, if_neg (not_or.2 ⟨not_le.2 small, not_lt.2 inside⟩)]
  dsimp only [grow]
  rw [slice_eq (Nat.le_add_right ..) (inside.trans size.ge), region]
  rfl

lemma expand_outside {offset count : UInt32} (outside : memoryLimit < offset.toNat + count.toNat) :
    expand state offset count = fail .failure :=
  if_pos (.inr outside)

lemma expand_follows (ready : state.Ready gas) (offset count : UInt32) :
    Follows (WithRegion gas offset count) (expand state offset count) (state.expand offset count)
      state overlong := by
  rw [State.expand, Memory.expand]
  by_cases inside : offset.toNat + count.toNat ≤ memoryLimit
  · rw [expand_inside inside, if_pos inside]
    have ready := ready_grow ready inside
    exact Follows.pass ready.bounded (le_max_left ..) (Follows.done ⟨rfl, rfl, ready⟩)
  · rw [expand_outside (not_le.1 inside), if_neg inside]
    exact Follows.fail (by rintro ⟨⟩)

/-- What is written where memory is active leaves the rest blank. -/
lemma ready_splice (ready : state.Ready gas) {first : ℕ} {bytes : Bytes}
    (active : first + bytes.length ≤ state.memory.size)
    (fits : first + bytes.length ≤ memoryLimit) :
    State.Ready gas
      { state with memory :=
        { state.memory with bytes := state.memory.bytes.splice first bytes fits } } := by
  refine ⟨⟨ready.bounded.stack, ready.bounded.size, ?_⟩, ready.charged⟩
  intro byte member
  rw [FixedBytes.drop_splice _ fits active] at member
  exact ready.bounded.blank byte member

lemma store_follows (ready : state.Ready gas) (offset : UInt32) (word : Word) :
    Follows (AtState gas) (store state offset word)
      (state.memory.store offset word >>= fun memory => .ok { state with memory }) state
      overlong := by
  have width : (32 : UInt32).toNat = word.toList.length := word.length_toList.symm
  rw [store, Memory.store]
  by_cases inside : offset.toNat + word.toList.length ≤ memoryLimit
  · have small : offset.toNat + word.toList.length < placeLimit :=
      inside.trans_lt (by decide : memoryLimit < placeLimit)
    have region : (state.memory.region offset 32).length = word.toList.length := by
      rw [Memory.region, List.length_take, List.length_drop, FixedBytes.length_toList, width]
      omega
    rw [expand_inside (width ▸ inside), dif_pos inside, pass_bind, done_bind, width]
    dsimp only
    rw [region, add_eq small, done_bind, copy_eq _ rfl inside, done_bind]
    have grown := ready_grow ready inside
    have written := ready_splice grown (le_max_right ..) inside
    refine Follows.pass grown.bounded (le_max_left ..) ?_
    exact Follows.pass written.bounded le_rfl (Follows.done ⟨rfl, rfl, written⟩)
  · rw [expand_outside (width ▸ not_le.1 inside), dif_neg inside]
    exact Follows.fail (by rintro ⟨⟩)

end State

/-! ## Parts of instructions -/

/-- Both computations have the same value, and the machine stays where it is. -/
def Staying (state current : State) (_ : Prop) (value value' : α) : Prop :=
  value = value' ∧ state = current

section Parts

variable {state : State} {gas : Int64} {overlong : Prop}

/-- There is nothing to guard. -/
lemma Follows.plain {plain : Except Status α}
    (ordinary : ∀ status, plain = .error status → status = .internalError → overlong) :
    Follows (Staying state) (ofExcept plain) plain state overlong := by
  cases plain with
  | ok value => exact Follows.done ⟨rfl, rfl⟩
  | error status => exact Follows.fail (ordinary status rfl)

lemma requireMutable_follows (setting : Setting) :
    Follows (Staying state) (ofExcept (requireMutable setting)) (requireMutable setting) state
      overlong := by
  refine Follows.plain ?_
  rintro status refused rfl
  rw [requireMutable] at refused
  split_ifs at refused
  cases refused

/-- Only an answer of too many bytes is an internal error. -/
lemma balanceWord_follows {answer : Bytes} (long : 32 < answer.length → overlong) :
    Follows (Staying state) (balanceWord answer) (Machine.balanceWord answer) state overlong := by
  rw [balanceWord_eq]
  refine Follows.plain fun status refused _ => long ?_
  by_contra short
  rw [Machine.balanceWord, Word.ofBytes, dif_pos (not_lt.1 short)] at refused
  cases refused

/-- The data of transaction and block can always be read. -/
lemma blockNumber32_follows (answer : FixedBytes TxContext.size) :
    Follows (Staying state) (blockNumber32 answer) (Machine.blockNumber32 answer) state
      overlong := by
  rw [blockNumber32_eq]
  obtain ⟨context, rfl⟩ := TxContext.exists_encode answer
  refine Follows.plain fun status refused _ => ?_
  rw [Machine.blockNumber32, TxContext.decode_answer] at refused
  cases refused

lemma popRegion_follows (ready : state.Ready gas) :
    Follows (WithState gas) (popRegion state) (Machine.popRegion state) state overlong := by
  refine (pop32_follows ready).bind ?_
  rintro current overlong _ ⟨offset, state⟩ ⟨rfl, rfl, ready⟩
  refine (pop32_follows ready).bind ?_
  rintro current overlong _ ⟨count, state⟩ ⟨rfl, rfl, ready⟩
  refine (expand_follows ready offset count).bind ?_
  rintro current overlong _ state ⟨rfl, rfl, ready⟩
  exact Follows.done ⟨rfl, rfl, ready⟩

end Parts

/-! ## Steps -/

/-- A run goes on only from a state that the machine is in, and ends with an internal error only
if some balance was overlong. -/
def Flow.Good (gas : Int64) (current : State) (overlong : Prop) : Flow → Prop
  | next state => state = current ∧ state.Ready gas
  | halt result => result.status = .internalError → overlong

/-- The instruction under guards does what the step does. -/
structure FollowsStep (gas : Int64) (computation : Guarded Flow) (step : Step) (current : State)
    (overlong : Prop) : Prop where
  same : ∀ rest, computation.andThen (Flow.andThen rest) = step.andThen rest
  kept : computation.Kept (fun current overlong flow => flow.Good gas current overlong) current
    overlong

section FollowsStep

variable {gas : Int64} {current : State} {overlong : Prop}

lemma FollowsStep.next {state : State} (ready : state.Ready gas) :
    FollowsStep gas (.done (.next state)) (.next state) state overlong where
  same _ := rfl
  kept := ⟨rfl, ready⟩

lemma FollowsStep.halt {result : Result} (ordinary : result.status = .internalError → overlong) :
    FollowsStep gas (.done (.halt result)) (.halt result) current overlong where
  same _ := rfl
  kept := ordinary

lemma FollowsStep.fail {status : Status} (ordinary : status = .internalError → overlong) :
    FollowsStep gas (.fail status) (.halt (Result.failure status)) current overlong where
  same _ := rfl
  kept := ordinary

lemma FollowsStep.ask {query : Query} {after : query.Answer → Guarded Flow}
    {after' : query.Answer → Step}
    (follows : ∀ answer, FollowsStep gas (after answer) (after' answer) current
      (overlong ∨ query.Overlong answer)) :
    FollowsStep gas (.ask query after) (.ask query after') current overlong where
  same rest := by
    refine congrArg (Program.ask query) ?_
    funext answer
    exact (follows answer).same rest
  kept answer := (follows answer).kept

lemma FollowsStep.call {message : Bytes} {after : Reply → Guarded Flow} {after' : Reply → Step}
    (follows : ∀ reply, FollowsStep gas (after reply) (after' reply) current overlong) :
    FollowsStep gas (.call message after) (.call message after') current overlong where
  same rest := by
    refine congrArg (Program.call () message) ?_
    funext _ reply
    exact (follows reply).same rest
  kept reply := (follows reply).kept

lemma FollowsStep.attempt {related : State → Prop → α → β → Prop} {computation : Guarded α}
    {plain : Except Status β} {next : α → Guarded Flow} {next' : β → Except Status Step}
    (first : Follows related computation plain current overlong)
    (second : ∀ current overlong value value', related current overlong value value' →
      FollowsStep gas (next value) (Step.attempt (next' value')) current overlong) :
    FollowsStep gas (computation >>= next) (Step.attempt (plain >>= next')) current overlong where
  same rest := by
    rw [andThen_bind, first.same _ (fun value' => (Step.attempt (next' value')).andThen rest)]
    · cases plain <;> rfl
    · intro current overlong value value' here
      exact (second current overlong value value' here).same rest
  kept := by
    refine first.kept.bind ?_
    rintro current overlong value ⟨value', here⟩
    exact (second current overlong value value' here).kept

lemma FollowsStep.proceed {computation : Guarded State} {plain : Except Status State}
    (follows : Follows (AtState gas) computation plain current overlong) :
    FollowsStep gas (proceed computation) (Step.proceed plain) current overlong := by
  have step : Step.proceed plain = Step.attempt (plain >>= fun state => .ok (.next state)) := by
    cases plain <;> rfl
  rw [step]
  refine FollowsStep.attempt follows ?_
  rintro current overlong _ state ⟨rfl, rfl, ready⟩
  exact FollowsStep.next ready

end FollowsStep

/-! ## Instructions -/

section Instructions

variable {setting : Setting} {state : State} {gas : Int64} {overlong : Prop}

lemma executeLog_follows (ready : state.Ready gas) (topicCount : ℕ) :
    FollowsStep gas (executeLog setting state topicCount)
      (Step.attempt (Machine.executeLog setting state topicCount)) state overlong := by
  refine FollowsStep.attempt (requireMutable_follows setting) ?_
  rintro current overlong _ _ ⟨rfl, rfl⟩
  refine FollowsStep.attempt (pop32_follows ready) ?_
  rintro current overlong _ ⟨offset, state⟩ ⟨rfl, rfl, ready⟩
  refine FollowsStep.attempt (pop32_follows ready) ?_
  rintro current overlong _ ⟨count, state⟩ ⟨rfl, rfl, ready⟩
  refine FollowsStep.attempt (popMany_follows ready topicCount) ?_
  rintro current overlong _ ⟨topics, state⟩ ⟨rfl, rfl, ready⟩
  refine FollowsStep.attempt (expand_follows ready offset count) ?_
  rintro current overlong _ state ⟨rfl, rfl, ready⟩
  refine FollowsStep.ask fun answer => ?_
  cases answer with
  | ok _ => exact FollowsStep.next ready
  | error _ => exact FollowsStep.fail (by rintro ⟨⟩)

lemma executeCall_follows (ready : state.Ready gas) :
    FollowsStep gas (executeCall setting state) (Step.attempt (Machine.executeCall setting state))
      state overlong := by
  refine FollowsStep.attempt (pop32_follows ready) ?_
  rintro current overlong _ ⟨gas32, state⟩ ⟨rfl, rfl, ready⟩
  refine FollowsStep.attempt (pop_follows ready) ?_
  rintro current overlong _ ⟨destination, state⟩ ⟨rfl, rfl, ready⟩
  dsimp only
  rw [addressOf_eq, done_bind]
  refine FollowsStep.attempt (pop_follows ready) ?_
  rintro current overlong _ ⟨value, state⟩ ⟨rfl, rfl, ready⟩
  refine FollowsStep.attempt (pop32_follows ready) ?_
  rintro current overlong _ ⟨inputOffset, state⟩ ⟨rfl, rfl, ready⟩
  refine FollowsStep.attempt (pop32_follows ready) ?_
  rintro current overlong _ ⟨inputSize, state⟩ ⟨rfl, rfl, ready⟩
  refine FollowsStep.attempt (pop32_follows ready) ?_
  rintro current overlong _ ⟨outputOffset, state⟩ ⟨rfl, rfl, ready⟩
  refine FollowsStep.attempt (pop32_follows ready) ?_
  rintro current overlong _ ⟨outputSize, state⟩ ⟨rfl, rfl, ready⟩
  dsimp only
  split_ifs
  · exact FollowsStep.fail (by rintro ⟨⟩)
  refine FollowsStep.attempt (expand_follows ready inputOffset inputSize) ?_
  rintro current overlong _ state ⟨rfl, rfl, ready⟩
  refine FollowsStep.attempt (expand_follows ready outputOffset outputSize) ?_
  rintro current overlong _ state ⟨rfl, rfl, ready⟩
  dsimp only
  rw [pack_eq, done_bind]
  generalize CallMessage.pack _ _ = packing
  cases packing with
  | error _ => exact FollowsStep.fail (by rintro ⟨⟩)
  | ok packed =>
      refine FollowsStep.call fun reply => FollowsStep.proceed ?_
      rw [replyFlag_eq, done_bind]
      exact push32_follows ready _

/-- **Every instruction does the same under guards and without,** and keeps to what has to be kept.
-/
theorem execute_follows (short : setting.input.length < placeLimit) (ready : state.Ready gas)
    (instruction : Instruction) :
    FollowsStep gas (execute setting state instruction)
      (Machine.execute setting state instruction) state overlong := by
  cases instruction with
  | stop => exact FollowsStep.halt (by rintro ⟨⟩)
  | undefined => exact FollowsStep.fail (by rintro ⟨⟩)
  | push word => exact FollowsStep.proceed (push_follows ready word)
  | memorySize => exact FollowsStep.proceed (push32_follows ready _)
  | address =>
      refine FollowsStep.proceed ?_
      rw [addressWord_eq]
      exact push_follows ready _
  | add =>
      refine FollowsStep.proceed ((pop32_follows ready).bind ?_)
      rintro current overlong _ ⟨a, state⟩ ⟨rfl, rfl, ready⟩
      refine (pop32_follows ready).bind ?_
      rintro current overlong _ ⟨b, state⟩ ⟨rfl, rfl, ready⟩
      exact push32_follows ready _
  | callDataLoad =>
      refine FollowsStep.proceed ((pop32_follows ready).bind ?_)
      rintro current overlong _ ⟨offset, state⟩ ⟨rfl, rfl, ready⟩
      dsimp only
      rw [inputWord_eq short]
      exact push_follows ready _
  | duplicate =>
      refine FollowsStep.proceed ((pop_follows ready).bind ?_)
      rintro current overlong _ ⟨word, state⟩ ⟨rfl, rfl, ready⟩
      refine (push_follows ready word).bind ?_
      rintro current overlong _ state ⟨rfl, rfl, ready⟩
      exact push_follows ready word
  | memoryStore =>
      refine FollowsStep.proceed ((pop32_follows ready).bind ?_)
      rintro current overlong _ ⟨offset, state⟩ ⟨rfl, rfl, ready⟩
      refine (pop_follows ready).bind ?_
      rintro current overlong _ ⟨word, state⟩ ⟨rfl, rfl, ready⟩
      exact store_follows ready offset word
  | balance =>
      refine FollowsStep.attempt (pop_follows ready) ?_
      rintro current overlong _ ⟨word, state⟩ ⟨rfl, rfl, ready⟩
      dsimp only
      rw [addressOf_eq, done_bind]
      refine FollowsStep.ask fun answer => FollowsStep.proceed ?_
      refine (balanceWord_follows Or.inr).bind ?_
      rintro current overlong balance _ ⟨rfl, rfl⟩
      exact push_follows ready balance
  | blockNumber =>
      refine FollowsStep.ask fun answer => FollowsStep.proceed ?_
      refine (blockNumber32_follows answer).bind ?_
      rintro current overlong number _ ⟨rfl, rfl⟩
      exact push32_follows ready number
  | slotLoad =>
      refine FollowsStep.attempt (pop_follows ready) ?_
      rintro current overlong _ ⟨key, state⟩ ⟨rfl, rfl, ready⟩
      exact FollowsStep.ask fun value => FollowsStep.proceed (push_follows ready value)
  | slotStore =>
      refine FollowsStep.attempt (requireMutable_follows setting) ?_
      rintro current overlong _ _ ⟨rfl, rfl⟩
      refine FollowsStep.attempt (pop_follows ready) ?_
      rintro current overlong _ ⟨key, state⟩ ⟨rfl, rfl, ready⟩
      refine FollowsStep.attempt (pop_follows ready) ?_
      rintro current overlong _ ⟨value, state⟩ ⟨rfl, rfl, ready⟩
      exact FollowsStep.ask fun _ => FollowsStep.next ready
  | log topicCount => exact executeLog_follows ready topicCount
  | call => exact executeCall_follows ready
  | returnData =>
      refine FollowsStep.attempt (popRegion_follows ready) ?_
      rintro current overlong _ ⟨region, state⟩ ⟨rfl, rfl, ready⟩
      exact FollowsStep.halt (by rintro ⟨⟩)
  | revert =>
      rw [execute, Machine.execute]
      by_cases defined : setting.revision.definesRevert = true
      · rw [if_pos defined, defined]
        refine FollowsStep.attempt (popRegion_follows ready) ?_
        rintro current overlong _ ⟨region, state⟩ ⟨rfl, rfl, ready⟩
        exact FollowsStep.halt (by rintro ⟨⟩)
      · rw [if_neg defined, Bool.eq_false_of_not_eq_true defined]
        exact FollowsStep.fail (by rintro ⟨⟩)
  | selfDestruct =>
      refine FollowsStep.attempt (requireMutable_follows setting) ?_
      rintro current overlong _ _ ⟨rfl, rfl⟩
      refine FollowsStep.attempt (pop_follows ready) ?_
      rintro current overlong _ ⟨word, state⟩ ⟨rfl, rfl, ready⟩
      dsimp only
      rw [addressOf_eq, done_bind]
      exact FollowsStep.ask fun _ => FollowsStep.halt (by rintro ⟨⟩)

end Instructions

/-! ## Runs -/

section Runs

variable {setting : Setting} {code : Bytes} {overlong : Prop}

lemma byteAt_eq {place : ℕ} (inside : place < code.length) :
    byteAt code place = done code[place] := by
  rw [byteAt, List.getElem?_eq_getElem inside]

/-- What stands at a place is executed, and the place is moved behind the bytes that are pushed. -/
lemma step_eq (short : code.length < 2 ^ 63) {place : ℕ} (inside : place < code.length)
    (state : State) :
    step setting code place state
      = execute setting state (Instruction.fetch code.toArray place inside).1 >>= fun flow =>
          done (place + (Instruction.fetch code.toArray place inside).2 - 1, flow) := by
  rw [step, byteAt_eq inside, done_bind, Instruction.fetch_eq inside]
  by_cases push : 0x60 ≤ code[place] ∧ code[place] ≤ 0x7f
  · have lower : 0x60 ≤ code[place].toNat := push.1
    have upper : code[place].toNat ≤ 0x7f := push.2
    have width : Instruction.pushWidth code[place] = code[place].toNat - 0x60 + 1 := by
      rw [Instruction.pushWidth, if_pos push]
      omega
    have wide : Instruction.pushWidth code[place] ≠ 0 := by omega
    have room : place + Instruction.pushWidth code[place] < placeLimit := by
      have limit : 2 ^ 63 + 0x7f < placeLimit := by decide
      omega
    have byte : code[place].toNat - 0x60 + 1 < UInt8.size := by
      have limit : 0x7f < UInt8.size := by decide
      omega
    have behind : place + (1 + Instruction.pushWidth code[place]) - 1
        = place + Instruction.pushWidth code[place] := by
      omega
    rw [if_pos push, if_neg wide, sub_eq lower, done_bind, add_eq byte, done_bind, ← width,
      operand_eq short inside (Instruction.pushWidth_le _), done_bind, add_eq room, done_bind,
      behind, execute, proceed, Guarded.push]
    split_ifs <;> rfl
  · have single : Instruction.pushWidth code[place] = 0 := if_neg push
    rw [if_neg push, if_pos single, instructionOf_eq, done_bind]
    rfl

/-- The run under guards is the program. -/
structure FollowsRun (computation : Guarded Result) (program : Program Unit) (current : State)
    (overlong : Prop) : Prop where
  same : (computation.andThen fun result => .finish () result.encode) = program
  kept : computation.Kept (fun _ overlong result => result.status = .internalError → overlong)
    current overlong

lemma FollowsRun.pass {computation : Guarded Result} {program : Program Unit}
    {current state : State} (bounded : state.Bounded)
    (grown : current.memory.size ≤ state.memory.size)
    (follows : FollowsRun computation program state overlong) :
    FollowsRun (.pass state computation) program current overlong where
  same := follows.same
  kept := ⟨bounded, grown, follows.kept⟩

/-- After an instruction the run is over or goes on from the state that it leads to. -/
lemma FollowsStep.bind {gas : Int64} {computation : Guarded Flow} {step : Step} {current : State}
    (follows : FollowsStep gas computation step current overlong) {onwards : State → Guarded Result}
    {rest : State → Program Unit}
    (further : ∀ state overlong, State.Ready gas state →
      FollowsRun (onwards state) (rest state) state overlong) :
    FollowsRun
      (computation >>= fun
        | .halt result => .done result
        | .next state => onwards state)
      (step.andThen rest) current overlong where
  same := by
    rw [andThen_bind, ← follows.same]
    refine follows.kept.andThen_congr ?_
    rintro current overlong (state | result) good
    · exact (further state overlong good.2).same
    · rfl
  kept := by
    refine follows.kept.bind ?_
    rintro current overlong (state | result) good
    · obtain ⟨rfl, ready⟩ := good
      exact (further state overlong ready).kept
    · exact good

/-- **Every run does the same under guards and without,** and keeps to what has to be kept. -/
theorem loop_follows (readable : setting.input.length < placeLimit) (short : code.length < 2 ^ 63)
    {limit place : ℕ} {state : State} (bounded : state.Bounded)
    (fit : code.length ≤ place + limit)
    (chargeable : place < code.length → state.gasLeft ≠ Int64.minValue) :
    FollowsRun (loop setting code (limit + 1) place state)
      (run setting code.toArray limit place state) state overlong := by
  induction limit generalizing place state overlong with
  | zero =>
      have ended : ¬ place < code.length := not_lt.2 fit
      rw [loop, if_neg ended, run]
      exact ⟨rfl, by rintro ⟨⟩⟩
  | succ limit ih =>
      rw [loop, run]
      by_cases inside : place < code.toArray.size
      · have charged : State.Ready (state.gasLeft - 1)
            { state with gasLeft := state.gasLeft - 1 } :=
          ⟨⟨bounded.stack, bounded.size, bounded.blank⟩, rfl⟩
        obtain ⟨forward, near⟩ := Instruction.fetch_width code.toArray place inside
        have there : place < code.length := inside
        have least := chargeable there
        rw [if_pos there, dif_pos inside, charge, if_neg least, if_neg least, pass_bind, done_bind]
        dsimp only
        by_cases spent : state.gasLeft - 1 < 0
        · rw [if_pos spent, if_pos spent]
          exact FollowsRun.pass charged.bounded le_rfl ⟨rfl, by rintro ⟨⟩⟩
        · rw [if_neg spent, if_neg spent, step_eq short inside, bind_bind]
          set width := (Instruction.fetch code.toArray place inside).2
          -- behind the instruction the run goes on with the gas that is left now
          have onwards (next : State) (overlong : Prop)
              (ready : State.Ready (state.gasLeft - 1) next) :
              FollowsRun
                (add placeLimit (place + width - 1) 1 >>= fun place =>
                  loop setting code (limit + 1) place next)
                (run setting code.toArray limit (place + width) next) next overlong := by
            have behind : place + width - 1 + 1 = place + width := by omega
            have room : place + width - 1 + 1 < placeLimit := by
              have limit : 2 ^ 63 + 33 < placeLimit := by decide
              omega
            rw [add_eq room, done_bind, behind]
            refine ih ready.bounded (by omega) fun _ => ?_
            rw [ready.charged]
            exact charged_ne_least spent
          exact FollowsRun.pass charged.bounded le_rfl
            (FollowsStep.bind (execute_follows readable charged _) onwards)
      · have ended : ¬ place < code.length := inside
        rw [if_neg ended, dif_neg inside]
        exact ⟨rfl, by rintro ⟨⟩⟩

/-- The machine starts with an empty stack and no memory active. -/
lemma bounded_initial (gas : Int64) : State.Bounded { gasLeft := gas } := by
  refine ⟨Nat.zero_le _, Nat.zero_le _, ?_⟩
  intro byte member
  exact List.eq_of_mem_replicate member

theorem start_follows {revision : Revision} {handed : Bytes} (short : code.length < 2 ^ 63)
    (chargeable : ∀ message input, CallMessage.unpack handed = .ok (message, input) → code ≠ [] →
      message.gas ≠ Int64.minValue) (current : State) (blank : current.memory.size = 0) :
    FollowsRun (start revision handed code) (Machine.start revision handed code) current
      (∃ fault, CallMessage.unpack handed = .error fault) := by
  have run := unpack_reads handed
  rw [Reads] at run
  rw [start, Machine.start, run, done_bind]
  cases unpacked : CallMessage.unpack handed with
  | error fault => exact ⟨rfl, fun _ => ⟨fault, rfl⟩⟩
  | ok parts =>
      obtain ⟨message, input⟩ := parts
      have readable : input.length < placeLimit :=
        (CallMessage.length_of_unpack unpacked).trans (by decide)
      refine FollowsRun.pass (bounded_initial message.gas) blank.le ?_
      refine loop_follows readable short (bounded_initial message.gas) (Nat.zero_add _).ge ?_
      intro inside
      exact chargeable message input unpacked (List.ne_nil_of_length_pos inside)

end Runs

end Guarded

/-- **The machine is total.**  Whatever the code and whatever the host answers, no guard fails, and
the run under guards is the run of the machine.  It ends with a reply that can be written and read.
In all states on its way memory and stack keep to their limits, and memory never becomes smaller.
The reply tells of an internal error only if the message cannot be unpacked or the host answered a
question about a balance with more than 32 bytes.

Code is a byte string in memory, where none takes up more than half of the places; and the gas of
the message can be charged for the first instruction if there is one. -/
theorem start_total {ω : Type} (host : Handler Unit ω) (world : ω) (revision : Revision)
    (handed code : Bytes) (short : code.length < 2 ^ 63)
    (chargeable : ∀ message input, CallMessage.unpack handed = .ok (message, input) → code ≠ [] →
      message.gas ≠ Int64.minValue) :
    let computation := Guarded.start revision handed code
    let program := start revision handed code
    computation.Safe ∧ (computation.andThen fun result => .finish () result.encode) = program ∧
    (∃ result : Result, (program.run host world).1 = .finished result.encode ∧
      Guarded.encodeResult result = .done result.encode.toList ∧
      Result.decode result.encode.toList = .ok result ∧
      (result.status = .internalError → (∃ fault, CallMessage.unpack handed = .error fault) ∨
        ∃ address answer, Event.answered (.balance address) answer ∈ program.events host world ∧
          32 < answer.length)) ∧
    (∀ state ∈ computation.states host world, state.Bounded) ∧
    (computation.states host world).Pairwise fun earlier later =>
      earlier.memory.size ≤ later.memory.size := by
  intro computation program
  have follows : Guarded.FollowsRun computation program { gasLeft := 0 } _ :=
    Guarded.start_follows short chargeable { gasLeft := 0 } rfl
  obtain ⟨along, increasing⟩ := follows.kept.states host world
  obtain ⟨result, ended, internal⟩ := follows.kept.ended host world
  rw [follows.same] at ended internal
  exact ⟨follows.kept.safe, follows.same,
    ⟨result, ended, Guarded.encodeResult_eq result, Result.decode_reply result, internal⟩,
    fun state member => (along state member).1, increasing⟩

/-- A host that answers questions about balances with one byte too many. -/
def overlongHost : Handler Unit Unit where
  answer _ query := (match query with
    | .accountExists _ => false
    | .accessAccount _ => .cold
    | .accessSlot _ _ => .cold
    | .slot _ _ => Word.zero
    | .setSlot _ _ _ => .unchanged
    | .balance _ => List.replicate 33 0
    | .codeSize _ => 0
    | .codeHash _ => Word.zero
    | .code _ => []
    | .destroy _ _ => false
    | .txContext => FixedBytes.zero TxContext.size
    | .blockHash _ => Word.zero
    | .log _ _ _ => .ok (), ())
  call _ _ _ := (FixedBytes.zero 32, (), ())

/-- Code that asks for its own balance, with a host whose answer is no word. -/
theorem overlong_balance_answered :
    let program := start .istanbul plainHanded [0x30, 0x31]
    (program.run overlongHost ()).1 = .finished (Result.failure .internalError).encode ∧
    ∃ address answer, Event.answered (.balance address) answer ∈ program.events overlongHost () ∧
      32 < answer.length := by
  intro program
  have failed : (program.run overlongHost ()).1
      = .finished (Result.failure .internalError).encode := by
    decide +kernel
  obtain ⟨-, -, ⟨result, ended, -, reads, internal⟩, -, -⟩ := start_total overlongHost () .istanbul
    plainHanded [0x30, 0x31] (by decide) fun message input readable _ =>
      plainHanded_chargeable message input readable
  have same : result.encode = (Result.failure .internalError).encode :=
    Ending.finished.inj (ended.symm.trans failed)
  have status : result = Result.failure .internalError := by
    rw [same, Result.decode_reply] at reads
    exact (Except.ok.inj reads).symm
  rcases internal (congrArg Result.status status) with ⟨fault, refused⟩ | answered
  · rw [unpack_plainHanded] at refused
    cases refused
  · exact ⟨failed, answered⟩

end Machine

end ContractHost
