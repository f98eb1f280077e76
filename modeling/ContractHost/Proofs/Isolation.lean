import ContractHost.Proofs.Provenance

/-!
# No account is changed but by its own code

The host lets an engine write to any account, destroy any, and leave logs in the name of any.  The
machine makes no use of this: whatever it changes is the destination of its message.  And the host
sees to it that the code which runs on a message is that of the destination, since the machine calls
in no other way; only the message at the root may bring its code along, to create an account.

So an account without code stays as it is, whatever code all the others have.

* `Machine.mandate` — what the machine does, given what it was handed.
* `Housed` — a run is started on code of its destination; **`Follows.housed`** — every step.
* `RunsItself` — the engine of the frame on top runs code of an account, on a message to it.
* **`machine_execute_isolated`** — every execution with the machine.
-/

namespace ContractHost

/-! ## The side of the machine -/

/-- A nested call that runs the code of its destination. -/
def PlainCall (sent : Bytes) : Prop :=
  ∃ nested input, CallMessage.unpack sent = .ok (nested, input) ∧ nested.kind = .call

namespace Machine

/-- The machine changes no account but the destination of the message that it was handed, and only
if it was handed code, too.  It makes plain calls. -/
def mandate (handed code : Bytes) : Law where
  answered query _ := ∀ address, query.subject? = some address →
    code ≠ [] ∧ ∃ message input, CallMessage.unpack handed = .ok (message, input) ∧
      message.destination = address
  calling sent := PlainCall sent
  ended _ := True

lemma engine_observes_mandate : engine.Observes (fun _ => True) mandate where
  starts _ revision code message input handed _ packs := by
    have unpacks := CallMessage.unpack_packed packs
    change (start revision handed code).Keeps (mandate handed code)
    cases code with
    | nil =>
        -- without code the machine is done at once
        rw [start, unpacks]
        trivial
    | cons first code =>
        refine (start_keeps packs revision (first :: code)).mono fun event allowed => ?_
        cases event with
        | answered query answer =>
            intro address subject
            obtain ⟨-, -, nothing | own⟩ := allowed
            · rw [subject] at nothing
              cases nothing
            · rw [subject] at own
              cases own
              exact ⟨List.cons_ne_nil _ _, _, _, unpacks, rfl⟩
        | calling sent =>
            obtain ⟨nested, input, readable, -, -, plain⟩ := allowed
            exact ⟨nested, input, readable, plain⟩
        | started | ended | replied => trivial
  passes _ _ _ := trivial

end Machine

/-! ## The side of the host -/

section Isolation

variable (store : Store) (root : CallMessage) (input : Bytes)

/-- The code belongs to the account: the store has it there, or a message at the root brings it
along to create the account. -/
def OwnCode (address : Address) (code : Bytes) : Prop :=
  code = store.code address ∨ root.kind.isCreate = true ∧ root.destination = address ∧ code = input

/-- There is code of the account that does something. -/
def HasCode (address : Address) : Prop :=
  store.code address ≠ [] ∨ root.kind.isCreate = true ∧ root.destination = address ∧ input ≠ []

/-- After some moments, the engine of the frame on top runs code of the account, and the message
that it was handed is addressed to the account. -/
def RunsItself (past : List Moment) (address : Address) : Prop :=
  ∃ handed code message text, RunsOn past handed code ∧
    CallMessage.unpack handed = .ok (message, text) ∧ message.destination = address ∧
    code ≠ [] ∧ OwnCode store root input address code

/-- The store has the code that it had, and if an engine starts, then on code of the destination of
its message. -/
structure Housed (moment : Moment) : Prop where
  grown : moment.host.store.Extends store
  started : ∀ revision handed code, moment.event = .started revision handed code →
    ∃ message text, CallMessage.unpack handed = .ok (message, text) ∧
      OwnCode store root input message.destination code

variable {store root input} {address : Address}

lemma OwnCode.hasCode {code : Bytes} (own : OwnCode store root input address code)
    (something : code ≠ []) : HasCode store root input address := by
  rcases own with rfl | ⟨creates, destination, rfl⟩
  · exact .inl something
  · exact .inr ⟨creates, destination, something⟩

lemma RunsItself.hasCode {past : List Moment} (runs : RunsItself store root input past address) :
    HasCode store root input address := by
  obtain ⟨handed, code, message, text, -, -, -, something, own⟩ := runs
  exact own.hasCode something

/-- At any event but a start there is only the store to look at. -/
lemma Housed.of_grown {moment : Moment} (grown : moment.host.store.Extends store)
    (elsewhere : ∀ revision handed code, moment.event ≠ .started revision handed code) :
    Housed store root input moment :=
  ⟨grown, fun revision handed code started => absurd started (elsewhere revision handed code)⟩

/-- **Every step of a run with plain calls only** starts an engine on code of its destination, or
none at all. -/
theorem Follows.housed {earlier later : Moment} (follows : Follows earlier later)
    (plain : ∀ sent, earlier.event = .calling sent → PlainCall sent)
    (housed : Housed store root input earlier) : Housed store root input later := by
  have grown := follows.store_extends.trans housed.grown
  cases follows with
  | asked | called | ended | refused | returned => exact .of_grown grown (by simp)
  | @admitted host sent text handed message admission =>
      refine ⟨grown, ?_⟩
      rintro _ _ _ ⟨⟩
      obtain ⟨nested, read, readable, call⟩ := plain sent rfl
      obtain ⟨original, unpacks, rfl⟩ := admission.readable
      rw [readable] at unpacks
      obtain ⟨rfl, rfl⟩ := Prod.mk.inj (Except.ok.inj unpacks)
      refine ⟨_, _, CallMessage.unpack_packed admission.packs, .inl ?_⟩
      -- the message has the kind of the call that was sent
      have stored : host.codeFor (nested.withDepth (host.depthFor nested)) read
          = host.store.code nested.destination := by
        rw [Host.codeFor, CallMessage.withDepth, call]
        rfl
      rw [stored, housed.grown.code_eq]
      rfl

/-! ## Whole runs -/

section Visit

variable {host last : Host} {outcome : Except Fault Outcome} {moments : List Moment}

lemma Visit.housed (visit : Visit host root input outcome moments last)
    (plain : ∀ moment ∈ moments, ∀ sent, moment.event = .calling sent → PlainCall sent) :
    ∀ moment ∈ moments, Housed host.store root input moment := by
  cases visit with
  | tooDeep | tooLong => simp
  | @ran inner during handed ending shallow packs run =>
      obtain ⟨-, trail⟩ := run.frame_trail host.settings.revision handed
        (host.codeFor root input) ending
      refine trail.forall (fun moment => ∀ sent, moment.event = .calling sent → PlainCall sent) _
        (fun follows before _ => follows.housed before) plain ⟨Store.Extends.refl _, ?_⟩
      rintro _ _ _ ⟨⟩
      refine ⟨_, _, CallMessage.unpack_packed packs, ?_⟩
      rw [Host.codeFor]
      split_ifs with creates
      · exact .inr ⟨creates, rfl, rfl⟩
      · exact .inl rfl

/-- **What the machine changes is the account whose code it runs.** -/
theorem Visit.runsItself (visit : Visit host root input outcome moments last)
    (chartered : Throughout (Chartered Machine.mandate) [] moments) {before after : List Moment}
    {later : Host} {query : Query} {answer : query.Answer}
    (shown : moments = before ++ ⟨later, .answered query answer⟩ :: after)
    (subject : query.subject? = some address) :
    RunsItself host.store root input before address := by
  have plain : ∀ moment ∈ moments, ∀ sent, moment.event = .calling sent → PlainCall sent := by
    intro moment member sent called
    obtain ⟨early, late, split⟩ := List.append_of_mem member
    rw [split] at chartered
    have here := chartered.at_split
    rw [Chartered, called] at here
    obtain ⟨_, _, -, allowed⟩ := here trivial
    exact allowed
  have housed := visit.housed plain
  rw [shown] at chartered
  obtain ⟨handed, code, runsOn, allowed⟩ := chartered.at_split trivial
  rw [List.nil_append] at runsOn
  obtain ⟨something, message, text, unpacks, destination⟩ := allowed address subject
  -- the start of the frame on top tells whose code it is
  have ⟨outer, entered, revision, during, split, _⟩ := runsOn
  obtain ⟨message', text', unpacks', own⟩ :=
    (housed ⟨entered, .started revision handed code⟩ (by simp [shown, split])).started
      revision handed code rfl
  rw [unpacks] at unpacks'
  cases unpacks'
  rw [destination] at own
  exact ⟨handed, code, message, text, runsOn, unpacks, destination, something, own⟩

/-- What was retained for the outcome of a visit was asked in the course of it. -/
lemma exists_asked {query : Query} (member : query ∈ retained some moments.dropLast) :
    ∃ before later answer after, moments = before ++ ⟨later, .answered query answer⟩ :: after := by
  obtain ⟨before, later, _, answer, after, shown, same, -⟩ := mem_retained.1 member
  cases same
  obtain ⟨rest, whole⟩ := List.dropLast_prefix moments
  refine ⟨before, later, answer, after ++ rest, ?_⟩
  rw [← whole, shown, List.append_assoc, List.cons_append]

end Visit

end Isolation

/-- **Accounts are isolated from each other's code.**  Whenever the machine writes a slot, destroys
an account or leaves a log, it runs code of the account in question, on a message to it: the code
that the store has for the account, or the input of a message at the root that creates it, and in
both cases code that is not empty.  So the storage, the destructions and the logs of a returned diff
are about accounts with such code only, and a balance in it is that of one of them that was
destroyed, or of an account which one of them named as its heir. -/
theorem machine_execute_isolated (store : Store) (txContext : TxContext) (settings : Settings)
    (blockHashes : Std.ExtTreeMap Int64 Word) (message : CallMessage) (input : Bytes) :
    let run := execute Machine.engine Observer.recorder ()
      ⟨{ store, txContext, settings, blockHashes }, []⟩ message input
    (∀ before later after query answer address,
      run.2.2.notes = before ++ ⟨later, .answered query answer⟩ :: after →
      query.subject? = some address → RunsItself store message input before address) ∧
    ∀ execution, run.1 = .ok execution →
      (∀ address, address ∈ execution.diff.storage ∨ address ∈ execution.diff.destroyed ∨
          (∃ entry ∈ execution.diff.logs, entry.address = address) →
        HasCode store message input address) ∧
      ∀ address ∈ execution.diff.balances,
        address ∈ execution.diff.destroyed ∨ ∃ before later subject first after,
          run.2.2.notes
            = before ++ ⟨later, .answered (.destroy subject address) first⟩ :: after ∧
          RunsItself store message input before subject := by
  intro run
  have chartered := execute_chartered Machine.engine_observes_mandate trivial (rfl : _ = run)
  obtain ⟨outcome, last, visit, report, -⟩ := execute_visits (rfl : _ = run)
  refine ⟨fun before later after query answer address shown subject =>
    visit.runsItself chartered shown subject, fun execution answered => ?_⟩
  obtain ⟨-, kept, rfl, rfl⟩ := reported_eq_ok.1 (report.symm.trans answered)
  have asked := visit.recorded recording_questions rfl
  refine ⟨fun address changes => ?_, fun address moved => ?_⟩
  · obtain ⟨query, member, subject⟩ := asked.changed address changes
    obtain ⟨before, later, answer, after, shown⟩ := exists_asked member
    exact (visit.runsItself chartered shown subject).hasCode
  · refine (asked.moved address moved).imp_right ?_
    rintro ⟨subject, member⟩
    obtain ⟨before, later, first, after, shown⟩ := exists_asked member
    exact ⟨before, later, subject, first, after, shown, visit.runsItself chartered shown rfl⟩

/-- An account that calls itself up to the limit of three levels and writes its slot every time has
code, and no other account is written to. -/
theorem selfCaller_execute_isolated :
    let run := execute Machine.engine Observer.recorder ()
      ⟨{ store := selfCaller, settings := { maxCallDepth := 3 } }, []⟩
      (CallMessage.plain Address.zero Address.zero 100) []
    ∃ execution, run.1 = .ok execution ∧ Address.zero ∈ execution.diff.storage ∧
      ∀ address ∈ execution.diff.storage, selfCaller.code address ≠ [] := by
  have ran : (execute Machine.engine Observer.recorder ()
      ⟨{ store := selfCaller, settings := { maxCallDepth := 3 } }, []⟩
      (CallMessage.plain Address.zero Address.zero 100) []).1.map
        (fun execution => execution.diff.storage.contains Address.zero) = .ok true := by
    decide +kernel
  have spec := machine_execute_isolated selfCaller {} { maxCallDepth := 3 } ∅
    (CallMessage.plain Address.zero Address.zero 100) []
  -- the run itself need not be looked at again
  generalize execute Machine.engine _ _ _ _ _ = run at ran spec ⊢
  obtain ⟨answer, state, world⟩ := run
  obtain ⟨-, returned⟩ := spec
  cases answer with
  | error fault => simp [Except.map] at ran
  | ok execution =>
      refine ⟨execution, rfl, Std.ExtTreeMap.contains_iff_mem.1 (Except.ok.inj ran), ?_⟩
      intro address written
      -- a plain call creates nothing
      exact ((returned execution rfl).1 address (.inl written)).resolve_right
        fun creates => absurd creates.1 (by decide)

end ContractHost
