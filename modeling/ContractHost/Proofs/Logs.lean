import ContractHost.Proofs.Faults
import ContractHost.Proofs.Retained

/-!
# Logs in order

Every frame keeps its own logs, and those of a nested call that succeeds are put behind those that
its caller has by then.  So they stay in the order of time, and what an execution returns are the
logs of all frames whose changes were kept up to the root, each of them once.

A log with too many topics is not recorded, but then the execution is answered with a fault and
returns no diff at all.

* `recording_logs` — the logs of a diff are those that were retained.
* **`execute_logs`** — the logs of a returned diff.
-/

namespace ContractHost

variable {σ : Type}

/-- The log that a question leaves. -/
def Query.log? : Query → Option LogEntry
  | .log address data topics => some ⟨address, data, topics⟩
  | _ => none

/-- The log that a question leaves, if it is accepted. -/
def Query.acceptedLog? : Query → Option LogEntry
  | .log address data topics => (LogEntry.make address data topics).toOption
  | _ => none

/-- **The logs of a diff are those that were retained.** -/
theorem recording_logs : Recording Query.acceptedLog? fun diff entries => diff.logs = entries where
  enter := rfl
  answer host query diff entries held := by
    subst held
    cases query with
    | log address data topics =>
        simp only [Query.record, Query.acceptedLog?]
        cases LogEntry.make address data topics with
        | ok entry => rfl
        | error fault => exact (List.append_nil _).symm
    | destroy address beneficiary =>
        simp only [Query.record]
        split_ifs <;> exact (List.append_nil _).symm
    | accountExists | accessAccount | accessSlot | slot | setSlot | balance | codeSize | codeHash
    | code | txContext | blockHash => exact (List.append_nil _).symm
  merge := by
    rintro older newer _ _ rfl rfl
    rfl

/-! ## Without faults -/

/-- A log that is no fault was accepted. -/
lemma Query.acceptedLog?_eq {query : Query} {answer : query.Answer} {previous : Option Event}
    (faultless : (Event.answered query answer).fault? previous = none) :
    query.acceptedLog? = query.log? := by
  cases query with
  | log address data topics =>
      have short : ¬ 4 < topics.length := by simpa [Event.fault?] using faultless
      simp only [acceptedLog?, LogEntry.make, LogEntry.topicLimit, short, if_false]
      rfl
  | _ => rfl

/-- As long as no fault comes to light, all logs are accepted. -/
lemma retained_logs {moments : List Moment} {previous : Option Event} (after : List Moment)
    (faultless : faultsAfter previous (moments ++ after) = []) :
    retained Query.acceptedLog? moments = retained Query.log? moments := by
  induction moments generalizing previous with
  | nil => rfl
  | cons moment moments ih =>
      rw [List.cons_append, faultsAfter, List.append_eq_nil_iff,
        Option.toList_eq_nil_iff] at faultless
      obtain ⟨here, later⟩ := faultless
      obtain ⟨host, event⟩ := moment
      cases event with
      | answered query answer => rw [retained, retained, ih later, Query.acceptedLog?_eq here]
      | started | ended | calling | replied => exact ih later

/-! ## Executions -/

/-- The logs of a visit without faults.  The end of its own frame does not count, since what became
of the frame is not settled yet. -/
lemma Visit.logs_eq {host last : Host} {message : CallMessage} {input : Bytes} {outcome : Outcome}
    {moments : List Moment} (visit : Visit host message input (.ok outcome) moments last)
    (idle : host.stack.frames = []) (faultless : last.fault = none) :
    outcome.diff.logs = retained Query.log? moments.dropLast := by
  have silent : (faults moments).head? = none := by
    have kept := visit.fault_eq
    rw [faultless, eq_comm, Option.or_eq_none_iff] at kept
    exact kept.2
  -- what is retained at the end was recorded before it
  obtain ⟨rest, whole⟩ := List.dropLast_prefix moments
  rw [List.head?_eq_none_iff, faults, ← whole] at silent
  exact (visit.recorded recording_logs idle).trans (retained_logs rest silent)

/-- **Logs come out in order, and none is lost, doubled or left over from a frame that failed.**
If an execution is answered with a diff, the logs in it are those that engines left, in the order
of time, in the frame at the root or in one that ended in success together with all frames between
it and the root.  The moments of a run end with the end of the root, which does not count: the diff
of the root is returned in any case. -/
theorem execute_logs (engine : Engine σ) (state : σ) (store : Store) (txContext : TxContext)
    (settings : Settings) (blockHashes : Std.ExtTreeMap Int64 Word) (message : CallMessage)
    (input : Bytes) :
    let run := execute engine Observer.recorder state
      ⟨{ store, txContext, settings, blockHashes }, []⟩ message input
    ∀ execution, run.1 = .ok execution →
      execution.diff.logs = retained Query.log? run.2.2.notes.dropLast := by
  intro run execution answered
  obtain ⟨outcome, last, visit, report, -⟩ := execute_visits (rfl : _ = run)
  obtain ⟨faultless, finished, rfl, rfl⟩ := reported_eq_ok.1 (report.symm.trans answered)
  exact visit.logs_eq rfl faultless

/-- The entry by which a log can be told from others. -/
def LogEntry.numbered (number : UInt8) : LogEntry := ⟨Address.zero, [number], []⟩

/-- Between two logs of its own, an engine calls itself twice.  Each nested call leaves a log, and
the second one reverts. -/
def Engine.chatty : Engine UInt8 where
  name := "chatty"
  version := "1"
  start calls _ _ _ :=
    .ask (.log Address.zero [calls] []) fun _ =>
      match calls with
      | 0 => .call 1 selfCall.encode.toList fun _ _ => .call 2 selfCall.encode.toList fun _ _ =>
        .ask (.log Address.zero [3] []) fun _ => .finish 3 (Result.success 0).encode
      | 1 => .finish 1 (Result.success 0).encode
      | _ => .finish 2 (Result.revert 0).encode

/-- The log of the reverted call is the only one that is lost. -/
theorem chatty_logs :
    let run := execute Engine.chatty Observer.recorder 0 ⟨{ store := .empty }, []⟩ selfCall []
    ∃ execution, run.1 = .ok execution ∧
      execution.diff.logs = [.numbered 0, .numbered 1, .numbered 3] := by
  have ran : (execute Engine.chatty Observer.recorder 0 ⟨{ store := .empty }, []⟩ selfCall
        []).1.isOk = true ∧
      retained Query.log? (execute Engine.chatty Observer.recorder 0 ⟨{ store := .empty }, []⟩
        selfCall []).2.2.notes.dropLast = [.numbered 0, .numbered 1, .numbered 3] := by
    decide +kernel
  have spec := execute_logs Engine.chatty 0 .empty {} {} ∅ selfCall []
  -- the run itself need not be looked at again
  generalize execute Engine.chatty _ _ _ _ _ = run at ran spec ⊢
  obtain ⟨answer, state, world⟩ := run
  cases answer with
  | error fault => simp [Except.isOk, Except.toBool] at ran
  | ok execution => exact ⟨execution, rfl, (spec execution rfl).trans ran.2⟩

end ContractHost
