import ContractHost.Proofs.Chronology
import ContractHost.Proofs.Conduct

/-!
# Static calls change nothing

A message with the static flag asks for a call that changes nothing.  The host does not enforce it:
it is the machine that asks no changing question under the flag and passes the flag on.  So in a
static execution every question only reads, at every level, and it follows that the store stays as
it was and that no diff ever holds anything.

* `Query.Reads` is what the machine asks then; `Host.answer_of_reads` what becomes of the host.
* `Untouched` — the store is the old one, and all diffs are empty.
* **`Follows.untouched`** — every step of a static run keeps it.
* **`static_execute`** — every static execution with the machine.
-/

namespace ContractHost

/-! ## Reading -/

/-- A question that only reads leaves the store and all diffs alone. -/
lemma Host.answer_of_reads {host : Host} {frame : Frame} {below : List Frame}
    (live : host.stack.frames = frame :: below) {query : Query} (reads : query.Reads) :
    (host.answer query).2.store = host.store ∧
    ∃ lent, (host.answer query).2.stack.frames = { frame with lent } :: below := by
  constructor
  · cases query with
    | balance address =>
        simp only [answer, balance]
        split <;> rfl
    | accountExists | slot | codeSize | codeHash | code | txContext | blockHash => rfl
    | accessAccount | accessSlot | setSlot | destroy | log => exact False.elim reads
  · obtain ⟨lent, frames⟩ := Host.answer_frames live query
    refine ⟨lent, frames.trans ?_⟩
    cases query with
    | accountExists | slot | balance | codeSize | codeHash | code | txContext | blockHash => rfl
    | accessAccount | accessSlot | setSlot | destroy | log => exact False.elim reads

/-- Nothing merged into nothing is nothing. -/
lemma FrameDiff.merge_empty : FrameDiff.merge {} {} = {} := by
  decide

namespace Machine

/-- What the machine does on a static message. -/
def reading : Law where
  answered query _ := query.Reads
  calling sent := ∃ nested input, CallMessage.unpack sent = .ok (nested, input) ∧
    nested.isStatic = true
  ended _ := True

lemma engine_keeps_reading : engine.Keeps (fun message => message.isStatic = true) reading where
  starts _ revision code message _ _ still packs := by
    refine (start_keeps packs revision code).mono fun event allowed => ?_
    cases event with
    | answered query answer => exact allowed.1 still
    | calling sent =>
        obtain ⟨nested, input, readable, flags, -⟩ := allowed
        refine ⟨nested, input, readable, ?_⟩
        rwa [CallMessage.isStatic, flags]
    | started | ended | replied => trivial
  passes _ sent readable := by
    obtain ⟨nested, input, unpacks, still⟩ := sent
    rw [readable] at unpacks
    cases unpacks
    exact still

end Machine

/-! ## One step -/

/-- The store is the given one, there is a frame, and no frame has changed anything. -/
structure Untouched (store : Store) (host : Host) : Prop where
  store_eq : host.store = store
  live : host.stack.frames ≠ []
  diffs : ∀ frame ∈ host.stack.frames, frame.diff = {}

/-- **Every step of a run that only reads leaves everything untouched.** -/
theorem Follows.untouched {earlier later : Moment} {store : Store} (follows : Follows earlier later)
    (after : Machine.reading.Allows later.event) (untouched : Untouched store earlier.host) :
    Untouched store later.host := by
  obtain ⟨same, live, empty⟩ := untouched
  obtain ⟨frame, below, top⟩ := List.exists_cons_of_ne_nil live
  cases follows with
  | called | ended => exact ⟨same, live, empty⟩
  | asked resumes query =>
      obtain ⟨kept, lent, frames⟩ := Host.answer_of_reads top after
      rw [top, List.forall_mem_cons] at empty
      refine ⟨kept.trans same, ?_, ?_⟩ <;> rw [frames]
      · exact List.cons_ne_nil _ _
      · exact List.forall_mem_cons.2 empty
  | refused refusal =>
      refine ⟨(Host.settle_store _ _).trans same, ?_, ?_⟩ <;> rw [refusal.settle_stack]
      · exact live
      · exact empty
  | admitted admission =>
      exact ⟨same, List.cons_ne_nil _ _, List.forall_mem_cons.2 ⟨rfl, empty⟩⟩
  | returned stacked ending =>
      rw [stacked, List.forall_mem_cons, List.forall_mem_cons] at empty
      obtain ⟨child, parent, rest⟩ := empty
      refine ⟨(Host.conclude_store _ _ _).trans same, ?_, ?_⟩ <;>
        rw [Host.returned_frames stacked]
      · exact List.cons_ne_nil _ _
      · refine List.forall_mem_cons.2 ⟨?_, rest⟩
        rw [child, parent, FrameDiff.merge_empty, ite_self]

/-! ## Whole runs -/

/-- **A run that only reads changes nothing:** neither the store nor, at any moment, a diff, and the
diff of its outcome is empty. -/
theorem Visit.untouched {host last : Host} {message : CallMessage} {input : Bytes}
    {outcome : Except Fault Outcome} {moments : List Moment}
    (visit : Visit host message input outcome moments last) (idle : host.stack.frames = [])
    (lawful : Machine.reading.Lawful moments) :
    last.store = host.store ∧ (∀ moment ∈ moments, Untouched host.store moment.host) ∧
    ∀ kept, outcome = .ok kept → kept.diff = {} := by
  cases visit with
  | tooDeep deep =>
      refine ⟨rfl, by simp, fun kept rejected => ?_⟩
      cases rejected
      rfl
  | tooLong shallow unpackable => exact ⟨rfl, by simp, by simp⟩
  | @ran inner during handed ending shallow packs visited =>
      obtain ⟨⟨child, ended⟩, trail⟩ := visited.frame_trail host.settings.revision handed
        (host.codeFor message input) ending
      have start : Untouched host.store (host.enter message) :=
        ⟨rfl, List.cons_ne_nil _ _, List.forall_mem_cons.2 ⟨rfl, by simp [idle]⟩⟩
      have untouched := trail.forall (fun moment => Machine.reading.Allows moment.event)
        (fun moment => Untouched host.store moment.host)
        (fun follows _ after => follows.untouched after) lawful start
      obtain ⟨same, -, empty⟩ := untouched ⟨inner, .ended ending⟩ (by simp)
      rw [ended, List.forall_mem_cons] at empty
      rw [Host.leave_top rfl ended]
      exact ⟨same, untouched, fun kept finished =>
        (Outcome.diff_of_ending finished).trans empty.1⟩

/-- **A static execution changes nothing,** whatever code it runs and however deep its calls nest:
the store is as it was, no frame has a change at any moment, and a diff that is handed back is
empty, without so much as an access. -/
theorem static_execute_untouched (store : Store) (txContext : TxContext) (settings : Settings)
    (blockHashes : Std.ExtTreeMap Int64 Word) (message : CallMessage) (input : Bytes)
    (still : message.isStatic = true) :
    let run := execute Machine.engine Observer.recorder ()
      ⟨{ store, txContext, settings, blockHashes }, []⟩ message input
    run.2.2.host.store = store ∧ (∀ moment ∈ run.2.2.notes, Untouched store moment.host) ∧
    ∀ execution, run.1 = .ok execution → execution.diff = {} := by
  intro run
  have lawful := execute_lawful Machine.engine_keeps_reading still (rfl : _ = run)
  obtain ⟨outcome, last, visit, report, after⟩ := execute_visits (rfl : _ = run)
  obtain ⟨same, untouched, empty⟩ := visit.untouched rfl lawful
  rw [after, report]
  refine ⟨same, untouched, fun execution answered => ?_⟩
  obtain ⟨-, kept, finished, rfl⟩ := reported_eq_ok.1 answered
  exact empty kept finished

/-- On three levels an account calls itself and then tries to write a slot, in vain. -/
theorem selfCaller_static_untouched :
    let message := { CallMessage.plain Address.zero Address.zero 100 with
      flags := CallMessage.staticFlag }
    let run := execute Machine.engine Observer.recorder ()
      ⟨{ store := selfCaller, settings := { maxCallDepth := 3 } }, []⟩ message []
    message.isStatic = true ∧ run.2.2.notes.length = 12 ∧ run.2.2.host.store = selfCaller ∧
    ∃ execution, run.1 = .ok execution ∧
      execution.result = Result.failure .staticModeViolation ∧ execution.diff = {} := by
  intro message
  have still : message.isStatic = true := by decide
  have ran : (execute Machine.engine Observer.recorder ()
        ⟨{ store := selfCaller, settings := { maxCallDepth := 3 } }, []⟩ message
        []).2.2.notes.length = 12 ∧
      (execute Machine.engine Observer.recorder ()
        ⟨{ store := selfCaller, settings := { maxCallDepth := 3 } }, []⟩ message
        []).1.map Execution.result = .ok (Result.failure .staticModeViolation) := by
    decide +kernel
  have spec := static_execute_untouched selfCaller {} { maxCallDepth := 3 } ∅ message [] still
  -- the run itself need not be looked at again
  generalize execute Machine.engine _ _ _ _ _ = run at ran spec ⊢
  obtain ⟨answer, state, world⟩ := run
  obtain ⟨same, -, empty⟩ := spec
  refine ⟨still, ran.1, same, ?_⟩
  cases answer with
  | error fault => simp [Except.map] at ran
  | ok execution => exact ⟨execution, rfl, Except.ok.inj ran.2, empty execution rfl⟩

end ContractHost
