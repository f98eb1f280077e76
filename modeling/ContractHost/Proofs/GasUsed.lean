import ContractHost.Proofs.Boundary
import ContractHost.Proofs.Course
import ContractHost.Proofs.Tandem

/-!
# The gas of an execution

An execution of the machine reports as used what the turns of the run at the root took, one unit
each, when that run ended with a success or a revert.  Otherwise everything is used.  What is called
on the way is paid for by nobody.

* `Machine.frameCourse` — the course of the run at the root, and
  **`Machine.execute_eq_frameCourse`** — its result is that of the execution.
* `Execution.gasUsed_of_course` — from what is left to what was used, without saturation.
* **`gas_exact`** — the accounts of every run, and those of every execution.
-/

namespace ContractHost

/-- The gas that is gone, where no more is left than there was. -/
lemma Execution.gasUsed_eq {execution : Execution} (some : 0 ≤ execution.result.gasLeft.toInt)
    (less : execution.result.gasLeft.toInt ≤ execution.gasLimit.toInt) :
    (execution.gasUsed : ℤ) = execution.gasLimit.toInt - execution.result.gasLeft.toInt := by
  have bound := execution.gasLimit.toInt_lt
  have most : gasUsedLimit = 2 ^ 63 - 1 := rfl
  rw [gasUsed, most, min_eq_right (by omega), Int.toNat_of_nonneg (by omega)]

/-- Where nothing is left, all is gone. -/
lemma Execution.gasUsed_of_nothing {execution : Execution} (funded : 0 ≤ execution.gasLimit.toInt)
    (nothing : execution.result.gasLeft = 0) : execution.gasUsed = execution.gasLimit.toInt := by
  have zero : execution.result.gasLeft.toInt = 0 := congrArg Int64.toInt nothing
  rw [gasUsed_eq (by omega) (by omega), zero, sub_zero]

/-- An execution whose result is that of a course used what the course took, or everything. -/
lemma Execution.gasUsed_of_course {ω : Type} {execution : Execution} {course : Machine.Course ω}
    {size : ℕ} (funded : 0 ≤ execution.gasLimit.toInt)
    (accounted : course.Accounted execution.gasLimit size)
    (same : execution.result = course.result) :
    (execution.result.status = .success ∨ execution.result.status = .revert →
      execution.gasUsed = course.started ∧
      execution.gasUsed + execution.result.gasLeft.toInt = execution.gasLimit.toInt) ∧
    (execution.result.status ≠ .success → execution.result.status ≠ .revert →
      execution.gasUsed = execution.gasLimit.toInt) := by
  have started := accounted.started_le
  have kept := accounted.kept
  have lost := accounted.lost
  rw [← same] at kept lost
  constructor
  · intro ended
    have given := kept ended
    have used := execution.gasUsed_eq (by omega) (by omega)
    omega
  · intro failed failed'
    exact gasUsed_of_nothing funded (lost failed failed')

namespace Machine

/-- The course of the run of a message in a frame of its own, with the calls that it makes. -/
def frameCourse (host : Host) (message : CallMessage) (input : Bytes) : Course (World Unit) :=
  courseOn host.settings.revision (message.withInput input.length) input
    (host.codeFor message input) ⟨World.ask Observer.silent, serveCall engine Observer.silent⟩
    ⟨host.enter message, ()⟩

/-- What comes of a message is the result of its course. -/
lemma runMessage_result (host : Host) {message : CallMessage} {input handed : Bytes}
    (charged : message.gas ≠ Int64.minValue) (shallow : message.depth < host.settings.maxCallDepth)
    (packs : message.pack input = .ok handed) :
    ∃ diff, (runMessage engine Observer.silent () ⟨host, ()⟩ message input).1
      = .ok ⟨(frameCourse host message input).result, diff⟩ := by
  have ran : (start host.settings.revision handed (host.codeFor message input)).run
      ⟨World.ask Observer.silent, serveCall engine Observer.silent⟩ ⟨host.enter message, ()⟩ = _ :=
    start_eq_courseOn (CallMessage.unpack_packed packs) charged
  obtain ⟨diff, ended⟩ : ∃ diff, (runHanded engine Observer.silent () ⟨host, ()⟩ message handed
      (host.codeFor message input)).1 = Outcome.ofEnding ((start host.settings.revision handed
        (host.codeFor message input)).run ⟨World.ask Observer.silent,
          serveCall engine Observer.silent⟩ ⟨host.enter message, ()⟩).1 diff := ⟨_, rfl⟩
  rw [runMessage_eq engine Observer.silent () ⟨host, ()⟩ shallow packs, ended, ran,
    Outcome.ofEnding_finished]
  exact ⟨diff, rfl⟩

/-- **The result of an execution is that of the run at the root,** unless the root is rejected. -/
theorem execute_eq_frameCourse (host : Host) {message : CallMessage} {input : Bytes}
    (charged : message.gas ≠ Int64.minValue) {execution : Execution}
    (answered : (ContractHost.execute engine Observer.silent () ⟨host, ()⟩ message input).1
      = .ok execution) :
    execution.gasLimit = message.gas ∧
      (message.depth < host.settings.maxCallDepth ∧
          execution.result = (frameCourse { host with fault := none } message input).result ∨
        host.settings.maxCallDepth ≤ message.depth ∧
          execution.result = Result.failure .callDepthExceeded) := by
  rw [execute_answer, reported_eq_ok] at answered
  obtain ⟨-, finished, came, rfl⟩ := answered
  refine ⟨rfl, ?_⟩
  by_cases shallow : message.depth < host.settings.maxCallDepth
  · refine .inl ⟨shallow, ?_⟩
    by_cases fits : input.length < UInt32.size
    · have packs : message.pack input = .ok _ := if_pos fits
      obtain ⟨diff, result⟩ := runMessage_result { host with fault := none } charged shallow packs
      rw [result] at came
      cases came
      rfl
    · have packs : message.pack input = .error _ := if_neg fits
      rw [runMessage_unpackable _ _ _ ⟨{ host with fault := none }, ()⟩ shallow packs] at came
      cases came
  · have deep : host.settings.maxCallDepth ≤ message.depth := UInt32.not_lt.1 shallow
    have exhausted : Host.levelsFrom { host with fault := none } message.depth = 0 :=
      Host.levelsFrom_of_le deep
    rw [runMessage_rejected _ _ _ ⟨{ host with fault := none }, ()⟩ input exhausted] at came
    cases came
    exact .inr ⟨deep, rfl⟩

/-- The machine is always answered for, if the input can be packed at all. -/
lemma execute_answers (host : Host) {message : CallMessage} {input : Bytes}
    (charged : message.gas ≠ Int64.minValue) (fits : input.length < UInt32.size) :
    ∃ execution, (ContractHost.execute engine Observer.silent () ⟨host, ()⟩ message input).1
      = .ok execution := by
  have ran : ContractHost.execute engine Observer.recorder () ⟨host, []⟩ message input = _ := rfl
  have lawful := execute_lawful engine_keeps_service charged ran
  obtain ⟨outcome, last, visit, report, -⟩ := execute_visits ran
  obtain ⟨faultless, ⟨result, diff, rfl, -⟩, -⟩ := visit.sound fits lawful rfl
  rw [faultless] at report
  -- whoever watches, the answer is the same
  rcases execute_tandem (Tandem.unwatched engine Observer.silent Observer.recorder) () ⟨host, ()⟩
    ⟨host, []⟩ ⟨rfl, trivial⟩ rfl rfl input rfl (.inl rfl) with lost | ⟨same, -, -⟩
  · exact lost.elim
  · exact ⟨_, same.trans report⟩

end Machine

/-- **Gas is accounted for exactly.**  Whatever the code and whatever the host answers, a run that
has no debts takes one unit of gas for each instruction that it starts, and gives the rest back with
a success or a revert and nothing otherwise.  An execution reports as used what the run at the root
took, or everything. -/
theorem gas_exact :
    (∀ (ω : Type) (revision : Revision) (handed code : Bytes) (message : CallMessage)
      (input : Bytes) (host : Handler Unit ω) (world : ω),
      CallMessage.unpack handed = .ok (message, input) → 0 ≤ message.gas →
      let course := Machine.courseOn revision message input code host world
      (Machine.start revision handed code).run host world
          = (.finished course.result.encode, (), course.world) ∧
        course.started ≤ code.length ∧ course.Accounted message.gas code.length) ∧
    ∀ (host : Host) (message : CallMessage) (input : Bytes), 0 ≤ message.gas →
      let answer := (execute Machine.engine Observer.silent () ⟨host, ()⟩ message input).1
      let root := Machine.frameCourse { host with fault := none } message input
      (input.length < UInt32.size → ∃ execution, answer = .ok execution) ∧
      root.Accounted message.gas (host.codeFor message input).length ∧
      ∀ execution, answer = .ok execution →
        (message.depth < host.settings.maxCallDepth → execution.result = root.result) ∧
        (execution.result.status = .success ∨ execution.result.status = .revert →
          execution.gasUsed = root.started ∧
          execution.gasUsed + execution.result.gasLeft.toInt = message.gas.toInt) ∧
        (execution.result.status ≠ .success → execution.result.status ≠ .revert →
          execution.gasUsed = message.gas.toInt) := by
  constructor
  · intro ω revision handed code message input host world readable funded course
    exact ⟨Machine.start_eq_courseOn readable (Int64.ne_minValue funded),
      Machine.courseOn_started_le revision message input code host world,
      Machine.courseOn_accounted revision message input code host world funded⟩
  · intro host message input funded answer root
    have accounted : root.Accounted message.gas (host.codeFor message input).length :=
      Machine.courseOn_accounted _ (message.withInput input.length) _ _ _ _ funded
    refine ⟨Machine.execute_answers host (Int64.ne_minValue funded), accounted, ?_⟩
    intro execution answered
    have nonneg : 0 ≤ message.gas.toInt := Int64.le_iff_toInt_le.1 funded
    obtain ⟨limit, ⟨-, same⟩ | ⟨deep, rejected⟩⟩ :=
      Machine.execute_eq_frameCourse host (Int64.ne_minValue funded) answered
    · rw [← limit] at nonneg accounted ⊢
      exact ⟨fun _ => same, Execution.gasUsed_of_course nonneg accounted same⟩
    · rw [← limit] at nonneg ⊢
      have nothing : execution.result.gasLeft = 0 := congrArg Result.gasLeft rejected
      refine ⟨fun shallow => absurd shallow (UInt32.not_lt.2 deep), ?_,
        fun _ _ => Execution.gasUsed_of_nothing nonneg nothing⟩
      rw [rejected]
      rintro (⟨⟨⟩⟩ | ⟨⟨⟩⟩)

/-- Ten instructions of the account that calls itself cost ten units of gas, although two levels of
calls below them are given a hundred units each.  A stop costs one. -/
theorem selfCaller_gas_exact :
    let host : Host := { store := selfCaller, settings := { maxCallDepth := 3 } }
    let message := CallMessage.plain Address.zero Address.zero 60
    let answer := (execute Machine.engine Observer.silent () ⟨host, ()⟩ message []).1
    let handler : Handler Unit (World Unit) :=
      ⟨World.ask Observer.silent, serveCall Machine.engine Observer.silent⟩
    let stopped := Machine.courseOn .istanbul
      ((CallMessage.plain Address.zero Address.zero 100).withInput 0) [] [0x00] handler ⟨host, ()⟩
    (0 ≤ message.gas ∧ ([] : Bytes).length < UInt32.size ∧
      ∃ execution, answer = .ok execution ∧ execution.result.status = .success ∧
        execution.gasUsed = 10 ∧
        (Machine.frameCourse { host with fault := none } message []).started = 10 ∧
        execution.gasUsed + execution.result.gasLeft.toInt = message.gas.toInt) ∧
    CallMessage.unpack Machine.plainHanded
      = .ok ((CallMessage.plain Address.zero Address.zero 100).withInput 0, []) ∧
    (Machine.start .istanbul Machine.plainHanded [0x00]).run handler ⟨host, ()⟩
      = (.finished stopped.result.encode, (), stopped.world) ∧
    stopped.Accounted 100 1 := by
  intro host message answer handler stopped
  have funded : 0 ≤ message.gas := by decide
  obtain ⟨runs, executions⟩ := gas_exact
  obtain ⟨answers, -, accounts⟩ := executions host message [] funded
  obtain ⟨execution, answered⟩ := answers (by decide)
  have shown : answer.toOption.map (fun execution => (execution.result.status, execution.gasUsed))
      = some (.success, 10) := by decide +kernel
  rw [show answer = .ok execution from answered] at shown
  obtain ⟨status, used⟩ := Prod.mk.inj (Option.some.inj shown)
  obtain ⟨same, sum⟩ := (accounts execution answered).2.1 (.inl status)
  obtain ⟨ran, -, accounted⟩ := runs _ .istanbul Machine.plainHanded [0x00] _ [] handler ⟨host, ()⟩
    Machine.unpack_plainHanded (by decide)
  exact ⟨⟨funded, by decide, execution, answered, status, used, same.symm.trans used, sum⟩,
    Machine.unpack_plainHanded, ran, accounted⟩

end ContractHost
