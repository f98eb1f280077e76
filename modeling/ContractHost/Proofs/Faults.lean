import ContractHost.Proofs.Chronology
import ContractHost.Proofs.NestedCall

/-!
# The first fault wins

A fault in the middle of a run is told to the engine as a failure and otherwise ends nothing: the
engine goes on, may hide it behind a success, and may run into further faults.  Which faults there
were can be read off the events of the run alone (`faults`), and the host keeps the first of them.

* `Event.fault?` — the fault that comes to light with an event.  A call that comes to nothing is a
  fault when its caller gets the reply, so after everything that happened inside.
* **`Trail.fault_eq`** — what a host has kept at any moment.
* **`execute_first_fault`** — with what an execution is answered.
-/

namespace ContractHost

variable {σ : Type}

/-! ## Faults in the order of time -/

/-- The fault for which the end of an engine stands, if no result came of it. -/
def Ending.fault? : Ending → Option Fault
  | .crashed reason => some (.engineCrashed reason)
  | .finished reply =>
    match Result.decode reply.toList with
    | .ok _ => none
    | .error fault => some fault

/-- The fault of a nested call that was answered right after an event: the call was made and could
not be read, or its engine ended without a result. -/
def Event.callFault? : Event → Option Fault
  | .calling sent =>
    match CallMessage.unpack sent with
    | .ok _ => none
    | .error fault => some fault
  | .ended ending => ending.fault?
  | _ => none

/-- The fault that comes to light with an event: a log with more than four topics, or a nested call
without an outcome, which depends on the event before its reply. -/
def Event.fault? (previous : Option Event) : Event → Option Fault
  | .answered (.log _ _ topics) _ =>
    if 4 < topics.length then some (.violation (.tooManyTopics topics.length 4)) else none
  | .replied _ => previous.bind Event.callFault?
  | _ => none

/-- The faults of some moments after an event, oldest first. -/
def faultsAfter : Option Event → List Moment → List Fault
  | _, [] => []
  | previous, moment :: moments =>
    (moment.event.fault? previous).toList ++ faultsAfter (some moment.event) moments

/-- The faults of a run, oldest first. -/
def faults (moments : List Moment) : List Fault := faultsAfter none moments

/-- The fault for which the end of the whole run stands. -/
def finalFault? (moments : List Moment) : Option Fault :=
  match moments.getLast? with
  | some ⟨_, .ended ending⟩ => ending.fault?
  | _ => none

lemma finalFault?_append (before : List Moment) (inner : Host) (ending : Ending) :
    finalFault? (before ++ [⟨inner, .ended ending⟩]) = ending.fault? := by
  rw [finalFault?, List.getLast?_append_of_ne_nil _ (by simp)]
  rfl

lemma finalFault?_eq_some {moments : List Moment} {fault : Fault} :
    finalFault? moments = some fault ↔ ∃ before inner ending,
      moments = before ++ [⟨inner, .ended ending⟩] ∧ ending.fault? = some fault := by
  constructor
  · intro found
    cases moments using List.reverseRecOn with
    | nil => simp [finalFault?] at found
    | append_singleton before last =>
        obtain ⟨inner, event⟩ := last
        cases event with
        | ended ending =>
            rw [finalFault?_append] at found
            exact ⟨before, inner, ending, rfl, found⟩
        | started | answered | calling | replied => simp [finalFault?] at found
  · rintro ⟨before, inner, ending, rfl, found⟩
    rw [finalFault?_append, found]

/-! ## What a host keeps -/

lemma Host.keepFault_fault (host : Host) (fault : Fault) :
    (host.keepFault fault).fault = host.fault.or (some fault) := by
  rw [keepFault]
  cases host.fault <;> rfl

/-- Only a log can be a fault among the questions. -/
lemma Host.answer_fault (host : Host) (query : Query) (previous : Option Event) :
    (host.answer query).2.fault
      = host.fault.or ((Event.answered query (host.answer query).1).fault? previous) := by
  cases query with
  | setSlot address key value =>
      simp only [answer, setSlot]
      split <;> exact (Option.or_none).symm
  | balance address =>
      simp only [answer, balance]
      split <;> exact (Option.or_none).symm
  | destroy address beneficiary =>
      rw [answer, destroy_host, withHeir]
      split_ifs <;> exact (Option.or_none).symm
  | log address data topics =>
      simp only [answer, log, LogEntry.make, LogEntry.topicLimit, Event.fault?]
      by_cases long : 4 < topics.length
      · simp only [long, if_true]
        exact host.keepFault_fault _
      · simp only [long, if_false]
        exact (Option.or_none).symm
  | accountExists _ | accessAccount _ | accessSlot _ _ | slot _ _ | codeSize _ | codeHash _
  | code _ | txContext | blockHash _ => exact (Option.or_none).symm

lemma Host.settle_ok_fault (host : Host) (outcome : Outcome) :
    (host.settle (.ok outcome)).2.fault = host.fault := by
  simp only [settle]
  split_ifs <;> rfl

lemma Host.settle_ending_fault (host : Host) (ending : Ending) (diff : FrameDiff) :
    (host.settle (Outcome.ofEnding ending diff)).2.fault = host.fault.or ending.fault? := by
  cases ending with
  | crashed reason => exact host.keepFault_fault _
  | finished reply =>
      cases decoded : Result.decode reply.toList with
      | ok result => simp only [Outcome.ofEnding, Ending.fault?, decoded, settle_ok_fault,
          Option.or_none]
      | error fault =>
          simp only [Outcome.ofEnding, Ending.fault?, decoded]
          exact host.keepFault_fault fault

/-- In one step a host keeps the fault of the new event, unless it had one. -/
lemma Follows.fault_eq {earlier later : Moment} (follows : Follows earlier later) :
    later.host.fault = earlier.host.fault.or (later.event.fault? (some earlier.event)) := by
  cases follows with
  | asked _ query => exact Host.answer_fault _ query _
  | called _ sent => exact (Option.or_none).symm
  | ended _ ending => exact (Option.or_none).symm
  | admitted admission => exact (Option.or_none).symm
  | @refused host sent outcome refusal =>
      cases refusal with
      | malformed unreadable =>
          simp only [Event.fault?, Option.bind_some, Event.callFault?, unreadable]
          exact host.keepFault_fault _
      | tooDeep readable deep =>
          simp only [Event.fault?, Option.bind_some, Event.callFault?, readable, Option.or_none]
          exact host.settle_ok_fault _
  | returned live ending => exact Host.settle_ending_fault _ ending _

/-- **A host keeps the first fault of all that came to light.** -/
theorem Trail.fault_eq {first last : Moment} {moments : List Moment}
    (trail : Trail first moments last) :
    last.host.fault = first.host.fault.or (faultsAfter (some first.event) moments).head? := by
  induction trail with
  | here moment => exact (Option.or_none).symm
  | step follows _ ih =>
      rw [ih, follows.fault_eq, faultsAfter, List.head?_append, Option.head?_toList,
        Option.or_assoc]

/-- So does one during a whole call. -/
lemma Visit.fault_eq {host last : Host} {message : CallMessage} {input : Bytes}
    {outcome : Except Fault Outcome} {moments : List Moment}
    (visit : Visit host message input outcome moments last) :
    last.fault = host.fault.or (faults moments).head? := by
  cases visit with
  | tooDeep | tooLong => exact Option.or_none.symm
  | ran ending shallow packs session =>
      obtain ⟨-, trail⟩ := session.frame_trail host.settings.revision _
        (host.codeFor message input) ending
      exact trail.fault_eq

/-! ## What an execution is answered with -/

lemma reported_eq_error {message : CallMessage} {kept : Option Fault} {ending : Ending}
    {diff : FrameDiff} {fault : Fault} :
    reported message kept (Outcome.ofEnding ending diff) = .error fault
      ↔ kept.or ending.fault? = some fault := by
  cases kept with
  | some first => simp [reported]
  | none =>
      cases ending with
      | crashed reason => simp [reported, Outcome.ofEnding, Ending.fault?]
      | finished reply =>
          cases decoded : Result.decode reply.toList <;>
            simp [reported, Outcome.ofEnding, Ending.fault?, decoded]

/-- An execution is answered with the first fault, or else with that of the root. -/
theorem execute_error_iff {engine : Engine σ} {state : σ} {host : Host} {message : CallMessage}
    {input : Bytes} {run : Except Fault Execution × σ × World (List Moment)}
    (ran : execute engine Observer.recorder state ⟨host, []⟩ message input = run)
    (fits : input.length < UInt32.size) (fault : Fault) :
    run.1 = .error fault
      ↔ (faults run.2.2.notes).head?.or (finalFault? run.2.2.notes) = some fault := by
  obtain ⟨outcome, last, visit, report, -⟩ := execute_visits ran
  rw [report]
  generalize run.2.2.notes = moments at visit ⊢
  cases visit with
  | tooDeep deep => simp [reported, faults, faultsAfter, finalFault?]
  | tooLong shallow unpackable => simp [CallMessage.pack, fits] at unpackable
  | @ran inner during handed ending shallow packs visited =>
      have kept := (Visit.ran ending shallow packs visited).fault_eq
      change inner.fault = none.or _ at kept
      rw [Option.none_or] at kept
      rw [reported_eq_error, ← kept, ← List.cons_append, finalFault?_append]
      rfl

/-- **The first fault wins.**  An execution in which faults came to light is answered with the
first of them, in whatever frame that was, whatever became of the frame, and whatever the engines
made of it.  Without such a fault it is answered with an error exactly if the engine at the root
ended without a result; and a call that is refused at the root for its depth is no error. -/
theorem execute_first_fault (engine : Engine σ) (state : σ) (store : Store)
    (txContext : TxContext) (settings : Settings) (blockHashes : Std.ExtTreeMap Int64 Word)
    (stale : Option Fault) (message : CallMessage) (input : Bytes)
    (fits : input.length < UInt32.size) :
    let run := execute engine Observer.recorder state
      ⟨{ store, txContext, settings, blockHashes, fault := stale }, []⟩ message input
    (∀ fault later, faults run.2.2.notes = fault :: later → run.1 = .error fault) ∧
    (faults run.2.2.notes = [] → ∀ fault, run.1 = .error fault ↔
      ∃ before inner ending, run.2.2.notes = before ++ [⟨inner, .ended ending⟩] ∧
        ending.fault? = some fault) ∧
    (settings.maxCallDepth ≤ message.depth →
      run.1 = .ok ⟨message.gas, Result.failure .callDepthExceeded, {}⟩) := by
  intro run
  have ran : execute engine Observer.recorder state
    ⟨{ store, txContext, settings, blockHashes, fault := stale }, []⟩ message input = run := rfl
  have answer := execute_error_iff ran fits
  refine ⟨fun fault later shown => ?_, fun none fault => ?_, fun deep => ?_⟩
  · rw [answer, shown]
    rfl
  · rw [answer, none, ← finalFault?_eq_some]
    rfl
  · obtain ⟨outcome, last, visit, report, -⟩ := execute_visits ran
    rw [report]
    generalize run.2.2.notes = moments at visit
    cases visit with
    | tooDeep _ => rfl
    | tooLong shallow _ => exact absurd shallow (UInt32.not_lt.2 deep)
    | ran _ shallow _ _ => exact absurd shallow (UInt32.not_lt.2 deep)

/-- An engine that dies after its first nested call, which leaves a log with five topics and
reverts. -/
def Engine.careless : Engine Bool where
  name := "careless"
  version := "1"
  start nested _ _ _ :=
    if nested then
      .ask (.log Address.zero [] (List.replicate 5 Word.zero)) fun _ =>
        .finish true (Result.revert 0).encode
    else .call true selfCall.encode.toList fun state _ => .crash state none

/-- The log of the reverted call is what the execution is answered with, not the later death. -/
theorem careless_first_fault :
    ([] : Bytes).length < UInt32.size ∧
    (execute Engine.careless Observer.recorder false ⟨{ store := .empty }, []⟩ selfCall []).1
      = .error (.violation (.tooManyTopics 5 4)) := by
  have short : ([] : Bytes).length < UInt32.size := by decide
  have found : faults (execute Engine.careless Observer.recorder false
      ⟨{ store := .empty }, []⟩ selfCall []).2.2.notes = [.violation (.tooManyTopics 5 4)] := by
    decide +kernel
  obtain ⟨first, -, -⟩ :=
    execute_first_fault Engine.careless false .empty {} {} ∅ none selfCall [] short
  exact ⟨short, first _ _ found⟩

end ContractHost
