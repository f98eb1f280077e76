import ContractHost.Proofs.Chronology
import ContractHost.Proofs.Conduct
import ContractHost.Proofs.Faults

/-!
# Nothing goes wrong between host and machine

Each side could fail the other: an engine may die, send what cannot be read or hand back what is no
result, and a host may refuse a log.  Between this host and the machine none of it ever happens, if
only the gas at the root is not the smallest number there is.  What the machine does itself is the
law of its conduct; what the host adds is seen from one moment to the next.

* `Event.Sound` — nothing went wrong with an event.
* **`Follows.sound`** — every step of a lawful run.
* **`machine_execute_sound`** — every execution with the machine.
-/

namespace ContractHost

/-- Nothing went wrong with an event that came right after another: a log was taken, a call can be
read, an engine handed back a result, and so did the host, whose own results are those of calls that
it rejected for their depth. -/
def Event.Sound (previous : Option Event) : Event → Prop
  | .started _ _ _ => True
  | .answered query answer => query.Granted answer
  | .calling sent => ∃ read, CallMessage.unpack sent = .ok read
  | .ended ending => ∃ reply result, ending = .finished reply ∧
    Result.decode reply.toList = .ok result ∧ result.status ∈ Machine.outcomes
  | .replied reply => ∃ result, Result.decode reply.toList = .ok result ∧
    (result.status ∈ Machine.outcomes ∨
      (∃ sent, previous = some (.calling sent)) ∧ result = Result.failure .callDepthExceeded)

namespace Machine

/-- What the machine does on a message whose gas is not the smallest number. -/
def service : Law where
  answered query answer := query.Granted answer
  calling sent := ∃ nested input, CallMessage.unpack sent = .ok (nested, input) ∧
    nested.gas ≠ Int64.minValue
  ended ending := ∃ result : Result, ending = .finished result.encode ∧ result.status ∈ outcomes

lemma engine_keeps_service :
    engine.Keeps (fun message => message.gas ≠ Int64.minValue) service where
  starts _ revision code _ _ _ charged packs := by
    refine (start_keeps packs revision code).mono fun event allowed => ?_
    cases event with
    | answered query answer => exact allowed.2.1
    | calling sent =>
        obtain ⟨nested, input, readable, -, gas, -⟩ := allowed
        exact ⟨nested, input, readable, gas⟩
    | ended ending => exact allowed.resolve_right charged
    | started | replied => trivial
  passes _ sent readable := by
    obtain ⟨nested, input, unpacks, gas⟩ := sent
    rw [readable] at unpacks
    cases unpacks
    exact gas

end Machine

/-! ## One step -/

lemma Outcome.ofEnding_finished (result : Result) (diff : FrameDiff) :
    Outcome.ofEnding (.finished result.encode) diff = .ok ⟨result, diff⟩ := by
  simp only [Outcome.ofEnding, result.decode_reply]

/-- No fault comes of a call that is made or answered lawfully. -/
lemma Machine.callFault?_eq_none {event : Event} (lawful : Machine.service.Allows event) :
    event.callFault? = none := by
  cases event with
  | calling sent =>
      obtain ⟨nested, input, readable, -⟩ := lawful
      simp only [Event.callFault?, readable]
  | ended ending =>
      obtain ⟨result, rfl, -⟩ := lawful
      simp only [Event.callFault?, Ending.fault?, result.decode_reply]
  | started | answered | replied => rfl

section Step

variable {earlier later : Moment}

/-- A lawful step adds no fault. -/
lemma Follows.fault_eq_none (follows : Follows earlier later)
    (before : Machine.service.Allows earlier.event) (after : Machine.service.Allows later.event)
    (clean : earlier.host.fault = none) : later.host.fault = none := by
  rw [follows.fault_eq, clean, Option.none_or]
  cases follows with
  | @asked host event resumes query =>
      cases query with
      | log address data topics =>
          have granted : (host.log address data topics).1 = .ok () := after
          have short : ¬ 4 < topics.length := by
            intro long
            simp [Host.log, LogEntry.make, LogEntry.topicLimit, long] at granted
          simp only [Event.fault?, if_neg short]
      | accountExists | accessAccount | accessSlot | slot | setSlot | balance | codeSize | codeHash
      | code | destroy | txContext | blockHash => rfl
  | called | ended | admitted => rfl
  | refused refusal => exact Machine.callFault?_eq_none before
  | returned live ending => exact Machine.callFault?_eq_none before

/-- **In a lawful step nothing goes wrong,** on the side of the host either. -/
theorem Follows.sound (follows : Follows earlier later)
    (before : Machine.service.Allows earlier.event) (after : Machine.service.Allows later.event) :
    later.event.Sound (some earlier.event) := by
  cases follows with
  | asked resumes query => exact after
  | called resumes sent =>
      obtain ⟨nested, input, readable, -⟩ := after
      exact ⟨_, readable⟩
  | ended resumes ending =>
      obtain ⟨result, rfl, ordinary⟩ := after
      exact ⟨_, result, rfl, result.decode_reply, ordinary⟩
  | admitted admission => trivial
  | refused refusal =>
      cases refusal with
      | malformed unreadable =>
          obtain ⟨nested, input, readable, -⟩ := before
          rw [readable] at unreadable
          cases unreadable
      | tooDeep readable deep =>
          exact ⟨Result.failure .callDepthExceeded, Result.decode_reply _, .inr ⟨⟨_, rfl⟩, rfl⟩⟩
  | @returned host child frame below live ending =>
      obtain ⟨result, rfl, ordinary⟩ := before
      refine ⟨result, ?_, .inl ordinary⟩
      simp only [Host.conclude, Outcome.ofEnding_finished, Host.settle, result.decode_reply]

end Step

/-! ## Whole runs -/

/-- Along a lawful trail nothing goes wrong with any event, and no fault is kept. -/
lemma Trail.sound {first last : Moment} {moments : List Moment} (trail : Trail first moments last)
    (lawful : Machine.service.Lawful (first :: moments)) (start : first.event.Sound none)
    {before after : List Moment} {moment : Moment}
    (shown : first :: moments = before ++ moment :: after) :
    moment.event.Sound (before.getLast?.map Moment.event) := by
  cases before using List.reverseRecOn with
  | nil =>
      cases shown
      exact start
  | append_singleton early earlier =>
      rw [List.append_assoc, List.singleton_append] at shown
      rcases trail.split shown with ⟨impossible, -⟩ | ⟨next, rest, same, follows⟩
      · cases impossible
      · cases same
        rw [List.getLast?_concat]
        refine follows.sound (lawful _ ?_) (lawful _ ?_) <;> simp [shown]

/-- **A lawful run ends with a result,** of an engine or of a rejection, and nothing goes wrong with
any of its events. -/
theorem Visit.sound {host last : Host} {message : CallMessage} {input : Bytes}
    {outcome : Except Fault Outcome} {moments : List Moment}
    (visit : Visit host message input outcome moments last) (fits : input.length < UInt32.size)
    (lawful : Machine.service.Lawful moments) (clean : host.fault = none) :
    last.fault = none ∧
    (∃ result diff, outcome = .ok ⟨result, diff⟩ ∧ (result.status ∈ Machine.outcomes ∨
      host.settings.maxCallDepth ≤ message.depth ∧ result = Result.failure .callDepthExceeded)) ∧
    ∀ before moment after, moments = before ++ moment :: after →
      moment.event.Sound (before.getLast?.map Moment.event) := by
  cases visit with
  | tooDeep deep => exact ⟨clean, ⟨_, _, rfl, .inr ⟨deep, rfl⟩⟩, by simp⟩
  | tooLong shallow unpackable => simp [CallMessage.pack, fits] at unpackable
  | @ran inner during handed ending shallow packs visited =>
      obtain ⟨-, trail⟩ := visited.frame_trail host.settings.revision handed
        (host.codeFor message input) ending
      have faultless := trail.forall (fun moment => Machine.service.Allows moment.event)
        (fun moment => moment.host.fault = none) Follows.fault_eq_none lawful clean
        ⟨inner, .ended ending⟩ (by simp)
      obtain ⟨result, rfl, ordinary⟩ := lawful ⟨inner, .ended ending⟩ (by simp)
      exact ⟨faultless, ⟨result, _, Outcome.ofEnding_finished result _, .inl ordinary⟩,
        fun before moment after => trail.sound lawful trivial⟩

/-- **An execution with the machine never fails.**  It is answered with one of the eight statuses of
the machine, or rejected for its depth, and nothing goes wrong with any event on the way: no engine
dies, no call and no reply is unreadable, no log is refused, and every frame ends with one of these
statuses. -/
theorem machine_execute_sound (store : Store) (txContext : TxContext) (settings : Settings)
    (blockHashes : Std.ExtTreeMap Int64 Word) (message : CallMessage) (input : Bytes)
    (charged : message.gas ≠ Int64.minValue) (fits : input.length < UInt32.size) :
    let run := execute Machine.engine Observer.recorder ()
      ⟨{ store, txContext, settings, blockHashes }, []⟩ message input
    (∃ execution, run.1 = .ok execution ∧
      (execution.result.status ∈ Machine.outcomes ∨
        settings.maxCallDepth ≤ message.depth ∧
          execution.result = Result.failure .callDepthExceeded)) ∧
    ∀ before moment after, run.2.2.notes = before ++ moment :: after →
      moment.event.Sound (before.getLast?.map Moment.event) := by
  intro run
  have lawful := execute_lawful Machine.engine_keeps_service charged (rfl : _ = run)
  obtain ⟨outcome, last, visit, report, -⟩ := execute_visits (rfl : _ = run)
  obtain ⟨faultless, ⟨result, diff, rfl, status⟩, sound⟩ := visit.sound fits lawful rfl
  rw [faultless] at report
  exact ⟨⟨_, report, status⟩, sound⟩

/-- An account that calls itself up to the limit of three levels is answered well. -/
theorem selfCaller_execute_sound :
    (CallMessage.plain Address.zero Address.zero 100).gas ≠ Int64.minValue ∧
    ([] : Bytes).length < UInt32.size ∧
    let run := execute Machine.engine Observer.recorder ()
      ⟨{ store := selfCaller, settings := { maxCallDepth := 3 } }, []⟩
      (CallMessage.plain Address.zero Address.zero 100) []
    run.2.2.notes.length = 15 ∧
    (∃ execution, run.1 = .ok execution ∧ execution.result.status ∈ Machine.outcomes) ∧
    ∀ before moment after, run.2.2.notes = before ++ moment :: after →
      moment.event.Sound (before.getLast?.map Moment.event) := by
  have charged : (CallMessage.plain Address.zero Address.zero 100).gas ≠ Int64.minValue := by decide
  have fits : ([] : Bytes).length < UInt32.size := by decide
  have ran : (execute Machine.engine Observer.recorder ()
        ⟨{ store := selfCaller, settings := { maxCallDepth := 3 } }, []⟩
        (CallMessage.plain Address.zero Address.zero 100) []).2.2.notes.length = 15 := by
    decide +kernel
  obtain ⟨⟨execution, answered, status⟩, sound⟩ := machine_execute_sound selfCaller {}
    { maxCallDepth := 3 } ∅ (CallMessage.plain Address.zero Address.zero 100) [] charged fits
  refine ⟨charged, fits, ran, ⟨execution, answered, status.resolve_right ?_⟩, sound⟩
  exact fun deep => absurd deep.1 (by decide)

end ContractHost
