import ContractHost.Proofs.GasUsed

/-!
# More gas

Nothing that the machine does depends on how much gas is left, as long as there is some.  With more
gas for the root an execution goes the same way; if the root ran out of gas, it now goes on from
there, and otherwise it ends as before, with as much more gas left as there was more to begin with.

* `Program.Outlasts` — one program does the same as another, and may go on when that one is spent.
* **`Machine.run_outlasts`** — what a run does with more gas.
* `callbacksAt` — what passes between the engine of a frame and its host.
* **`Program.run_outlasts`** — what becomes of two such programs in the frame at the root.
* **`execute_more_gas`** — executions.
-/

namespace ContractHost

/-! ## Programs with more gas -/

/-- The results are the same, but that the second one gives more gas back, if any. -/
inductive Result.Exceeds (more : ℤ) : Result → Result → Prop
  | success {gas gas' : Int64} (gap : gas'.toInt = gas.toInt + more) :
      Exceeds more (Result.success gas) (Result.success gas')
  | revert {gas gas' : Int64} (gap : gas'.toInt = gas.toInt + more) :
      Exceeds more (Result.revert gas) (Result.revert gas')
  | failure {status : Status} (failed : status.Failed) :
      Exceeds more (Result.failure status) (Result.failure status)

namespace Result.Exceeds

variable {more : ℤ} {result result' : Result}

lemma status_eq (exceeds : result.Exceeds more result') : result'.status = result.status := by
  cases exceeds <;> rfl

lemma status_ne (exceeds : result.Exceeds more result') : result.status ≠ .outOfGas := by
  cases exceeds with
  | success | revert => exact nofun
  | failure failed => exact failed.2.2

lemma gasLeft_eq (exceeds : result.Exceeds more result')
    (ended : result.status = .success ∨ result.status = .revert) :
    result'.gasLeft.toInt = result.gasLeft.toInt + more := by
  cases exceeds with
  | success gap | revert gap => exact gap
  | failure failed => exact absurd ended (not_or.2 ⟨failed.1, failed.2.1⟩)

end Result.Exceeds

/-- The second program does the same as the first, until that one runs out of gas. -/
inductive Program.Outlasts (more : ℤ) : Program Unit → Program Unit → Prop
  | spent (longer : Program Unit) :
      Outlasts more (.finish () (Result.failure .outOfGas).encode) longer
  | finish {result result' : Result} (exceeds : result.Exceeds more result') :
      Outlasts more (.finish () result.encode) (.finish () result'.encode)
  | ask (query : Query) {next next' : query.Answer → Program Unit}
      (each : ∀ answer, Outlasts more (next answer) (next' answer)) :
      Outlasts more (.ask query next) (.ask query next')
  | call (sent : Bytes) {next next' : Unit → Reply → Program Unit}
      (each : ∀ reply, Outlasts more (next () reply) (next' () reply)) :
      Outlasts more (.call () sent next) (.call () sent next')

/-- The same message with other gas. -/
def CallMessage.withGas (message : CallMessage) (gas : Int64) : CallMessage := { message with gas }

namespace Machine

/-- The same setting, of a message with other gas. -/
def Setting.withGas (setting : Setting) (gas : Int64) : Setting :=
  { setting with message := setting.message.withGas gas }

/-- No instruction looks at the gas that the message gave. -/
lemma execute_withGas (setting : Setting) (gas : Int64) (state : State)
    (instruction : Instruction) :
    execute (setting.withGas gas) state instruction = execute setting state instruction := by
  cases instruction with
  | log topicCount =>
      refine congrArg Step.attempt ?_
      iterate 5 refine bind_congr fun _ => ?_
      refine congrArg (fun after => pure (Step.ask _ after)) (funext fun answer => ?_)
      cases answer <;> rfl
  | _ => rfl

section Outlasts

variable {more : ℤ} {gas gas' : Int64}

lemma Step.Carries.outlasts {step step' : Step} (carries : Carries gas gas' step step')
    (gap : gas'.toInt = gas.toInt + more) {rest rest' : State → Program Unit}
    (further : ∀ state : State, (rest (state.withGas gas)).Outlasts more
      (rest' (state.withGas gas'))) :
    (step.andThen rest).Outlasts more (step'.andThen rest') := by
  induction carries with
  | next state => exact further state
  | success => exact .finish (.success gap)
  | revert => exact .finish (.revert gap)
  | failure failed => exact .finish (.failure failed)
  | ask query _ ih => exact .ask query ih
  | call sent _ ih => exact .call sent ih

/-- **A run with more gas does the same,** until the other is out of gas. -/
theorem run_outlasts (setting : Setting) (given : Int64) (code : Array UInt8) (limit place : ℕ)
    (state : State) (funded : 0 ≤ gas) (extra : 0 ≤ more) (gap : gas'.toInt = gas.toInt + more) :
    (run setting code limit place (state.withGas gas)).Outlasts more
      (run (setting.withGas given) code limit place (state.withGas gas')) := by
  induction limit generalizing gas gas' place state with
  | zero => exact .finish (.success gap)
  | succ limit ih =>
      by_cases inside : place < code.size
      · by_cases spent : gas ≤ 0
        · obtain rfl : gas = 0 := Int64.le_antisymm spent funded
          rw [run, dif_pos inside]
          exact .spent _
        · have spent' : ¬ gas' ≤ 0 := by
            rw [Int64.le_iff_toInt_le] at spent ⊢
            omega
          -- both are charged, and what is between them stays
          obtain ⟨-, left, rest⟩ := charged_of_funded spent
          obtain ⟨-, left', -⟩ := charged_of_funded spent'
          have gap' : (gas' - 1).toInt = (gas - 1).toInt + more := by omega
          have carries := execute_carries setting (gas - 1) (gas' - 1) state
            (Instruction.fetch code place inside).1
          rw [run_next setting limit inside (state.withGas gas) spent,
            run_next (setting.withGas given) limit inside (state.withGas gas') spent',
            execute_withGas]
          exact carries.outlasts gap' fun next => ih _ next rest gap'
      · rw [run, run, dif_neg inside, dif_neg inside]
        exact .finish (.success gap)

end Outlasts

lemma start_outlasts {message : CallMessage} {gas : Int64} {input handed handed' : Bytes}
    (packs : message.pack input = .ok handed)
    (packs' : (message.withGas gas).pack input = .ok handed') (funded : 0 ≤ message.gas)
    (more : message.gas ≤ gas) (revision : Revision) (code : Bytes) :
    (engine.start () revision handed code).Outlasts (gas.toInt - message.gas.toInt)
      (engine.start () revision handed' code) := by
  change (start revision handed code).Outlasts _ (start revision handed' code)
  rw [start, start, CallMessage.unpack_packed packs, CallMessage.unpack_packed packs']
  have extra := Int64.le_iff_toInt_le.1 more
  exact run_outlasts ⟨revision, message.withInput input.length, input⟩ gas code.toArray
    code.length 0 { gasLeft := message.gas } funded (sub_nonneg.2 extra)
    (add_sub_cancel _ _).symm

end Machine

/-! ## Callbacks -/

/-- The engine turns to the host, or is answered. -/
def Event.isCallback : Event → Bool
  | .answered _ _ | .calling _ | .replied _ => true
  | .started _ _ _ | .ended _ => false

/-- The callbacks of the frames that are on top of a stack of this size. -/
def callbacksAt (size : ℕ) (notes : List Moment) : List Event :=
  (notes.filter fun moment => moment.event.isCallback && moment.host.stack.size == size).map
    Moment.event

lemma callbacksAt_append (size : ℕ) (notes moments : List Moment) :
    callbacksAt size (notes ++ moments) = callbacksAt size notes ++ callbacksAt size moments := by
  rw [callbacksAt, List.filter_append, List.map_append, callbacksAt, callbacksAt]

/-- Something else is noted. -/
lemma callbacksAt_note (size : ℕ) (notes : List Moment) (host : Host) {event : Event}
    (quiet : event.isCallback = false) :
    callbacksAt size (Observer.recorder notes host event) = callbacksAt size notes := by
  rw [Observer.recorder, callbacksAt_append]
  simp [callbacksAt, quiet]

/-- Runs of the same messages, compared by the callbacks of some frames. -/
def Tandem.calledBack {σ : Type} (engine : Engine σ) (size : ℕ) :
    Tandem engine Observer.recorder Observer.recorder :=
  ofSame engine _ _ (fun notes notes' => callbacksAt size notes = callbacksAt size notes')
    (fun event same resembles => by
      rw [Observer.recorder, Observer.recorder, callbacksAt_append, callbacksAt_append, same]
      simp only [callbacksAt, List.filter_cons, resembles.size]
      split_ifs <;> rfl)
    (fun _ => False) (fun _ _ => id) 0 (.inl rfl)

/-! ## The frame at the root -/

/-- The first run is out of gas, and the callbacks of its frame came in the second as well, or the
runs came to the same but for gas. -/
def Outlasted (size : ℕ) (more : ℤ) (ran ran' : Ending × Unit × World (List Moment)) : Prop :=
  ran.1 = .finished (Result.failure .outOfGas).encode ∧
      callbacksAt size ran.2.2.notes <+: callbacksAt size ran'.2.2.notes ∨
    ∃ result result' : Result, ran.1 = .finished result.encode ∧ ran'.1 = .finished result'.encode ∧
      result.Exceeds more result' ∧ ran.2.2.host.Resembles ran'.2.2.host

section Frame

variable {size : ℕ} {more : ℤ} {settings : Settings} {depth : UInt32}

/-- A program with more gas does the same as the other until that one is spent. -/
theorem Program.run_outlasts {program program' : Program Unit}
    (outlasts : program.Outlasts more program')
    (serves : ∀ world world' sent, world.host.RunsAt settings depth →
      world'.host.RunsAt settings depth →
      (Tandem.calledBack Machine.engine size).Abreast world world' →
      (Tandem.calledBack Machine.engine size).Agree
        (serveCall Machine.engine Observer.recorder () world sent)
        (serveCall Machine.engine Observer.recorder () world' sent))
    {world world' : World (List Moment)} (running : world.host.RunsAt settings depth)
    (running' : world'.host.RunsAt settings depth)
    (abreast : (Tandem.calledBack Machine.engine size).Abreast world world') :
    Outlasted size more
      (program.run ⟨World.ask Observer.recorder, serveCall Machine.engine Observer.recorder⟩ world)
      (program'.run ⟨World.ask Observer.recorder, serveCall Machine.engine Observer.recorder⟩
        world') := by
  induction outlasts generalizing world world' with
  | spent longer =>
      -- whatever comes later in the longer run, it comes on top of what is noted so far
      obtain ⟨moments, noted⟩ :=
        Program.run_notesOn Machine.engine Observer.recorder longer running'
      refine .inl ⟨rfl, ?_⟩
      rw [noted, Observer.recorder_notesOn, callbacksAt_append, ← abreast.2]
      exact List.prefix_append _ _
  | finish exceeds => exact .inr ⟨_, _, rfl, rfl, exceeds, abreast.1⟩
  | ask query each ih =>
      obtain ⟨same, further⟩ := abreast.ask query
      have asked : Session world.host _ (world.host.answer query).2 := .asked query (.idle _)
      have asked' : Session world'.host _ (world'.host.answer query).2 := .asked query (.idle _)
      simp only [Program.run]
      rw [← same]
      exact ih _ (asked.runsAt running) (asked'.runsAt running') further
  | call sent each ih =>
      have left := serveCall_runsAt Machine.engine Observer.recorder () world sent running
      have left' := serveCall_runsAt Machine.engine Observer.recorder () world' sent running'
      have served := serves world world' sent running running' abreast
      simp only [Program.run]
      generalize serveCall Machine.engine Observer.recorder () world sent = made at left served
      generalize serveCall Machine.engine Observer.recorder () world' sent = made' at left' served
      obtain ⟨reply, after, further⟩ := made
      obtain ⟨reply', after', further'⟩ := made'
      obtain ⟨rfl, rfl, abreast⟩ := served.resolve_left id
      exact ih reply left left' abreast

/-- The frame of a message with more gas. -/
lemma runHanded_outlasts {message : CallMessage} {gas : Int64} {input handed handed' : Bytes}
    {world : World (List Moment)}
    (packs : message.pack input = .ok handed)
    (packs' : (message.withGas gas).pack input = .ok handed') (funded : 0 ≤ message.gas)
    (more : message.gas ≤ gas) (shallow : message.depth < world.host.settings.maxCallDepth)
    (code : Bytes) :
    let ran := runHanded Machine.engine Observer.recorder () world message handed code
    let ran' := runHanded Machine.engine Observer.recorder () world (message.withGas gas) handed'
      code
    (∃ diff, ran.1 = .ok ⟨Result.failure .outOfGas, diff⟩) ∧
        callbacksAt size ran.2.2.notes <+: callbacksAt size ran'.2.2.notes ∨
      ∃ result result' diff, ran.1 = .ok ⟨result, diff⟩ ∧ ran'.1 = .ok ⟨result', diff⟩ ∧
        result.Exceeds (gas.toInt - message.gas.toInt) result' ∧
        ran.2.2.host.Resembles ran'.2.2.host := by
  obtain ⟨levels, left⟩ := Host.exists_levels shallow
  have entered : (Tandem.calledBack Machine.engine size).Abreast
      (World.note Observer.recorder ⟨world.host.enter message, world.notes⟩
        (.started world.host.settings.revision handed code))
      (World.note Observer.recorder ⟨world.host.enter (message.withGas gas), world.notes⟩
        (.started world.host.settings.revision handed' code)) := by
    have resembles := Host.Resembles.enter (rfl : world.host.Resembles world.host) message
      (message.withGas gas)
    exact ⟨resembles, (callbacksAt_note size _ _ rfl).trans (callbacksAt_note size _ _ rfl).symm⟩
  have ran := Program.run_outlasts
    (Machine.start_outlasts packs packs' funded more world.host.settings.revision code)
    (fun inner inner' sent (running : inner.host.RunsAt world.host.settings _)
      (running' : inner'.host.RunsAt world.host.settings _) abreast =>
      serveCall_tandem (runMessage_tandem _ levels) running running'
        ((running.levelsFrom_eq _).trans left) ((running'.levelsFrom_eq _).trans left) abreast rfl
        (.refl _ sent))
    (world.host.runsAt_enter message) (world.host.runsAt_enter (message.withGas gas)) entered
  rw [runHanded_eq, runHanded_eq]
  generalize Program.run _ _ _ = made at ran ⊢
  generalize Program.run _ _ _ = made' at ran ⊢
  obtain ⟨ending, after, inner⟩ := made
  obtain ⟨ending', after', inner'⟩ := made'
  rcases ran with ⟨rfl, shown⟩ | ⟨result, result', rfl, rfl, exceeds, resembles⟩
  · refine .inl ⟨⟨_, Outcome.ofEnding_finished (Result.failure .outOfGas) _⟩, ?_⟩
    dsimp only at shown ⊢
    rw [callbacksAt_note _ _ _ rfl, callbacksAt_note _ _ _ rfl]
    exact shown
  · obtain ⟨same, leaves⟩ := resembles.leave world.host.stack.size
    dsimp only at same ⊢
    rw [← same]
    exact .inr ⟨result, result', _, Outcome.ofEnding_finished result _,
      Outcome.ofEnding_finished result' _, exceeds, leaves⟩

/-- A message with more gas. -/
theorem runMessage_outlasts (world : World (List Moment)) {message : CallMessage} {gas : Int64}
    (input : Bytes) (funded : 0 ≤ message.gas) (more : message.gas ≤ gas) {outcome : Outcome} :
    let ran := runMessage Machine.engine Observer.recorder () world message input
    let ran' := runMessage Machine.engine Observer.recorder () world (message.withGas gas) input
    ran.1 = .ok outcome →
      outcome.result.status = .outOfGas ∧
          callbacksAt size ran.2.2.notes <+: callbacksAt size ran'.2.2.notes ∨
        ∃ result', ran'.1 = .ok ⟨result', outcome.diff⟩ ∧
          outcome.result.Exceeds (gas.toInt - message.gas.toInt) result' ∧
          ran.2.2.host.Resembles ran'.2.2.host := by
  intro ran ran' came
  by_cases shallow : message.depth < world.host.settings.maxCallDepth
  · by_cases fits : input.length < UInt32.size
    · have packs : message.pack input = .ok _ := if_pos fits
      have packs' : (message.withGas gas).pack input = .ok _ := if_pos fits
      have same : ran = runHanded _ _ _ _ _ _ _ := runMessage_eq _ _ _ world shallow packs
      have same' : ran' = runHanded _ _ _ _ _ _ _ := runMessage_eq _ _ _ world shallow packs'
      rw [same] at came ⊢
      rw [same']
      rcases runHanded_outlasts packs packs' funded more shallow _
        with ⟨⟨diff, spent⟩, shown⟩ | ⟨result, result', diff, ended, ended', exceeds, resembles⟩
      · rw [spent] at came
        cases came
        exact .inl ⟨rfl, shown⟩
      · rw [ended] at came
        cases came
        exact .inr ⟨result', ended', exceeds, resembles⟩
    · have packs : message.pack input = .error _ := if_neg fits
      have same : ran = _ := runMessage_unpackable _ _ _ world shallow packs
      rw [same] at came
      cases came
  · have exhausted := Host.levelsFrom_of_le (UInt32.not_lt.1 shallow)
    have same : ran = _ := runMessage_rejected _ _ _ world input exhausted
    have same' : ran' = _ := runMessage_rejected _ _ _ world input exhausted
    rw [same] at came ⊢
    rw [same']
    cases came
    exact .inr ⟨_, rfl, .failure (by decide : Status.callDepthExceeded.Failed), rfl⟩

end Frame

/-! ## Executions -/

/-- **More gas never changes what was done.**  If an execution ends with any status but that it is
out of gas, it ends so with more gas as well, with the same changes and the same store, and has as
much more gas left as it was given, if it has any.  If it is out of gas, its frame at the root made
the first of the callbacks that it makes with more gas. -/
theorem execute_more_gas (host : Host) (message : CallMessage) (input : Bytes) (gas : Int64)
    (funded : 0 ≤ message.gas) (more : message.gas ≤ gas) :
    let run := execute Machine.engine Observer.recorder () ⟨host, []⟩ message input
    let run' := execute Machine.engine Observer.recorder () ⟨host, []⟩ (message.withGas gas) input
    ∀ execution, run.1 = .ok execution →
      (execution.result.status ≠ .outOfGas → ∃ execution', run'.1 = .ok execution' ∧
        execution'.result.status = execution.result.status ∧ execution'.diff = execution.diff ∧
        run'.2.2.host.store = run.2.2.host.store ∧
        (execution.result.status = .success ∨ execution.result.status = .revert →
          execution'.result.gasLeft.toInt
            = execution.result.gasLeft.toInt + (gas.toInt - message.gas.toInt))) ∧
      (execution.result.status = .outOfGas →
        callbacksAt (host.stack.size + 1) run.2.2.notes
          <+: callbacksAt (host.stack.size + 1) run'.2.2.notes) := by
  intro run run' execution answered
  rw [execute_answer, reported_eq_ok] at answered
  obtain ⟨faultless, finished, came, rfl⟩ := answered
  rcases runMessage_outlasts ⟨{ host with fault := none }, []⟩ input funded more came
    with ⟨spent, shown⟩ | ⟨result', came', exceeds, resembles⟩
  · exact ⟨fun other => absurd spent other, fun _ => shown⟩
  · refine ⟨fun _ => ⟨⟨gas, result', finished.diff⟩, ?_, exceeds.status_eq, rfl,
      resembles.store.symm, exceeds.gasLeft_eq⟩, fun spent => absurd spent exceeds.status_ne⟩
    rw [execute_answer, reported_eq_ok]
    exact ⟨resembles.fault.symm.trans faultless, _, came', rfl⟩

/-- The account that calls itself, called with this gas where three levels are allowed. -/
def selfCalled (gas : Int64) : Except Fault Execution × Unit × World (List Moment) :=
  execute Machine.engine Observer.recorder ()
    ⟨{ store := selfCaller, settings := { maxCallDepth := 3 } }, []⟩
    (CallMessage.plain Address.zero Address.zero gas) []

/-- With nine units of gas the account that calls itself is out of gas before it writes, with ten
it writes as with sixty. -/
theorem selfCaller_more_gas :
    ((0 : Int64) ≤ 9 ∧ (9 : Int64) ≤ 60 ∧ ∃ execution, (selfCalled 9).1 = .ok execution ∧
      execution.result.status = .outOfGas ∧ (callbacksAt 1 (selfCalled 9).2.2.notes).length = 2 ∧
      callbacksAt 1 (selfCalled 9).2.2.notes <+: callbacksAt 1 (selfCalled 60).2.2.notes) ∧
    ((0 : Int64) ≤ 10 ∧ (10 : Int64) ≤ 60 ∧ ∃ execution execution',
      (selfCalled 10).1 = .ok execution ∧ execution.result.status = .success ∧
      (selfCalled 60).1 = .ok execution' ∧ execution'.result.status = .success ∧
      execution'.diff = execution.diff ∧
      (selfCalled 60).2.2.host.store = (selfCalled 10).2.2.host.store ∧
      execution'.result.gasLeft.toInt = execution.result.gasLeft.toInt + 50) := by
  -- what more gas does to this call
  have more (gas : Int64) (funded : 0 ≤ gas) (less : gas ≤ 60) := execute_more_gas
    { store := selfCaller, settings := { maxCallDepth := 3 } }
    (CallMessage.plain Address.zero Address.zero gas) [] 60 funded less
  have called (gas : Int64) : (CallMessage.plain Address.zero Address.zero gas).withGas 60
      = CallMessage.plain Address.zero Address.zero 60 := rfl
  have folded (gas : Int64) : execute Machine.engine Observer.recorder ()
      ⟨{ store := selfCaller, settings := { maxCallDepth := 3 } }, []⟩
      (CallMessage.plain Address.zero Address.zero gas) [] = selfCalled gas := rfl
  simp only [called, folded] at more
  have reaches (gas : Int64) (status : Status)
      (shown : (selfCalled gas).1.toOption.map (fun execution => execution.result.status)
        = some status) :
      ∃ execution, (selfCalled gas).1 = .ok execution ∧ execution.result.status = status := by
    rcases answered : (selfCalled gas).1 with fault | execution <;> rw [answered] at shown
    · cases shown
    · exact ⟨execution, rfl, Option.some.inj shown⟩
  constructor
  · obtain ⟨execution, answered, status⟩ := reaches 9 .outOfGas (by decide +kernel)
    have spent := (more 9 (by decide) (by decide) execution answered).2 status
    exact ⟨by decide, by decide, execution, answered, status, by decide +kernel, spent⟩
  · obtain ⟨execution, answered, status⟩ := reaches 10 .success (by decide +kernel)
    have alike := (more 10 (by decide) (by decide) execution answered).1
    rw [status] at alike
    obtain ⟨execution', answered', status', diff, store, given⟩ := alike (by decide)
    exact ⟨by decide, by decide, execution, execution', answered, status, answered', status', diff,
      store, given (.inl rfl)⟩

end ContractHost
