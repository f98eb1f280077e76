import ContractHost.Proofs.Heirs
import ContractHost.Proofs.Run
import ContractHost.Proofs.Wire

/-!
# What a nested call does to its caller

A nested call is all or nothing.  If its answer is a success, the diff of the caller is merged with
the last diff of the called frame; with any other answer it stays as it was.  The frames below the
caller never change, and neither do the message and the buffers of the caller itself.

* **`serveCall_all_or_nothing`** — the statement for every engine and every byte string.
* **`serveCall_unsuccessful`** — after an answer other than success, questions are answered as if
  the call had not been made, but for one thing: the store keeps the empty accounts that it got for
  heirs in the meantime (`unsuccessful_call_leaves_heir`).
-/

namespace ContractHost

variable {σ : Type}

/-! ## Answers -/

/-- The result that a caller is told. -/
def toldResult : Except Fault Outcome → Result
  | .ok outcome => outcome.result
  | .error fault => Result.failure fault.status

lemma Host.settle_reply (host : Host) (outcome : Except Fault Outcome) :
    (host.settle outcome).1 = (toldResult outcome).encode := by
  cases outcome <;> rfl

/-- What a caller is told can be read. -/
lemma Host.decode_settle_reply (host : Host) (outcome : Except Fault Outcome) :
    Result.decode (host.settle outcome).1.toList = .ok (toldResult outcome) := by
  rw [settle_reply, ← List.append_nil (toldResult outcome).encode.toList, Result.decode_encode]

/-- No fault is told as a success. -/
lemma Fault.status_ne_success (fault : Fault) : fault.status ≠ .success := by
  cases fault <;> simp [Fault.status]

lemma Refusal.told_ne_success {host : Host} {sent : Bytes} {outcome : Except Fault Outcome}
    (refusal : Refusal host sent outcome) : (toldResult outcome).status ≠ .success := by
  cases refusal with
  | malformed _ => exact Fault.status_ne_success _
  | tooDeep _ _ => simp [toldResult, Outcome.rejected, Result.failure, Fault.status_ne_success]

/-- A frame's end is told as a success exactly if its changes are kept. -/
lemma told_ofEnding_eq_success (ending : Ending) (diff : FrameDiff) :
    (toldResult (Outcome.ofEnding ending diff)).status = .success ↔ ending.succeeded := by
  cases ending with
  | crashed reason => simp [Outcome.ofEnding, toldResult, Result.failure, Fault.status,
      Ending.succeeded]
  | finished reply =>
      cases decoded : Result.decode reply.toList with
      | ok result => simp [Outcome.ofEnding, toldResult, Ending.succeeded, decoded,
          Result.isSuccess, Status.isSuccess]
      | error fault => simp [Outcome.ofEnding, toldResult, Ending.succeeded, decoded,
          Result.failure, Fault.status_ne_success]

/-! ## The caller -/

section Caller

variable {host last : Host} {sent : Bytes} {reply : Reply} {moments : List Moment}
  {frame : Frame} {below : List Frame} {result : Result}

/-- A nested call that is told as a success was run, in a session of a frame of its own that ended
in success. -/
lemma Served.run_of_success (served : Served host sent reply moments last)
    (decoded : Result.decode reply.toList = .ok result) (success : result.status = .success) :
    ∃ message before during inner ending, Session (host.enter message) during inner ∧
      moments = before ++ [⟨inner, .ended ending⟩, ⟨last, .replied reply⟩] ∧
      last = (inner.conclude host.stack.size ending).2 ∧ ending.succeeded = true := by
  cases served with
  | refused refusal =>
      rw [Host.decode_settle_reply] at decoded
      cases decoded
      exact absurd success refusal.told_ne_success
  | @called inner during input handed message ending admission run =>
      rw [Host.conclude, Host.decode_settle_reply] at decoded
      cases decoded
      have succeeded := (told_ofEnding_eq_success _ _).1 success
      exact ⟨message, ⟨host, .calling sent⟩ :: ⟨host.enter message,
        .started host.settings.revision handed (host.codeFor message input)⟩ :: during,
        during, inner, ending, run, by simp, rfl, succeeded⟩

/-- A nested call that is told as a success was run: its last frame lay on the caller's frames, and
its diff was merged into the caller's. -/
lemma Served.merged (served : Served host sent reply moments last)
    (live : host.stack.frames = frame :: below)
    (decoded : Result.decode reply.toList = .ok result) (success : result.status = .success) :
    ∃ before inner ending child,
      moments = before ++ [⟨inner, .ended ending⟩, ⟨last, .replied reply⟩] ∧
      inner.stack.frames = child :: frame :: below ∧
      last.stack.frames = { frame with diff := frame.diff.merge child.diff } :: below := by
  obtain ⟨message, before, during, inner, ending, run, shown, rfl, succeeded⟩ :=
    served.run_of_success decoded success
  obtain ⟨child, ended, -⟩ := run.top (Host.enter_frames live message)
  refine ⟨before, inner, ending, child, shown, ended, ?_⟩
  rw [Host.conclude_frames live ended, if_pos succeeded]

/-- A nested call that is told as anything else leaves the stack as it was. -/
lemma Served.dropped (served : Served host sent reply moments last)
    (live : host.stack.frames = frame :: below)
    (decoded : Result.decode reply.toList = .ok result) (failed : result.status ≠ .success) :
    last.stack.frames = frame :: below := by
  cases served with
  | refused refusal => rw [refusal.settle_stack, live]
  | @called inner during input handed message ending admission run =>
      obtain ⟨child, ended, -⟩ := run.top (Host.enter_frames live message)
      rw [Host.conclude, Host.decode_settle_reply] at decoded
      cases decoded
      rw [Ne, told_ofEnding_eq_success] at failed
      rw [Host.conclude_frames live ended, if_neg failed]

/-- What a nested call is answered with can always be read. -/
lemma Served.decodes (served : Served host sent reply moments last) :
    ∃ result, Result.decode reply.toList = .ok result := by
  cases served with
  | refused refusal => exact ⟨_, Host.decode_settle_reply _ _⟩
  | called ending admission run => exact ⟨_, Host.decode_settle_reply _ _⟩

end Caller

/-! ## All or nothing -/

/-- A call of the account zero by itself. -/
def selfCall : CallMessage := CallMessage.plain Address.zero Address.zero 0

/-- A host with an empty store, as it is when a call has just started at the root. -/
def Host.rooted : Host := ({ store := .empty } : Host).enter selfCall

/-- Registers an account for destruction in favour of an heir, and hands back a reply. -/
def Engine.bequeathing (subject heir : Address) (reply : Reply) : Engine Unit where
  name := "bequeathing"
  version := "1"
  start _ _ _ _ := .ask (.destroy subject heir) fun _ => .finish () reply

/-- An account that is in no store of ours. -/
def stranger : Address := Address.ofWord (Word.ofNat 1)

/-- **A nested call is all or nothing.**  Its answer can always be read.  The frames below the
caller stay as they are, and the caller keeps its message and its buffers.  After a success its
diff is merged with the one that the called frame ended with, as the second last moment shows it;
otherwise its diff stays as well. -/
theorem serveCall_all_or_nothing (engine : Engine σ) (state : σ) {host : Host} {frame : Frame}
    {below : List Frame} (live : host.stack.frames = frame :: below) (sent : Bytes) :
    let served := serveCall engine Observer.recorder state ⟨host, []⟩ sent
    ∃ result diff, Result.decode served.1.toList = .ok result ∧
      served.2.2.host.stack.frames = { frame with diff } :: below ∧
      (result.status = .success → ∃ before inner ending child,
        served.2.2.notes
          = before ++ [⟨inner, .ended ending⟩, ⟨served.2.2.host, .replied served.1⟩] ∧
        inner.stack.frames = child :: frame :: below ∧
        diff = frame.diff.merge child.diff) ∧
      (result.status ≠ .success → diff = frame.diff) := by
  intro served
  obtain ⟨moments, run, noted⟩ := serveCall_served engine Observer.recorder state host [] sent
  rw [Observer.recorder_notesOn, List.nil_append] at noted
  obtain ⟨result, decoded⟩ := run.decodes
  by_cases success : result.status = .success
  · obtain ⟨before, inner, ending, child, shown, ended, merged⟩ :=
      run.merged live decoded success
    refine ⟨result, frame.diff.merge child.diff, decoded, merged, fun _ => ?_, ?_⟩
    · exact ⟨before, inner, ending, child, noted.trans shown, ended, rfl⟩
    · exact fun failed => absurd success failed
  · have dropped := run.dropped live decoded success
    exact ⟨result, frame.diff, decoded, dropped, fun h => absurd h success, fun _ => rfl⟩

/-- A call that destroys an account and succeeds has its last diff merged into its caller's. -/
theorem rooted_call_merged :
    let served := serveCall (Engine.bequeathing Address.zero stranger (Result.success 0).encode)
      Observer.recorder () ⟨Host.rooted, []⟩ selfCall.encode.toList
    ∃ before inner ending child,
      served.2.2.notes
        = before ++ [⟨inner, .ended ending⟩, ⟨served.2.2.host, .replied served.1⟩] ∧
      inner.stack.frames = [child, { message := selfCall }] ∧
      served.2.2.host.stack.frames
        = [{ message := selfCall, diff := FrameDiff.empty.merge child.diff }] := by
  have live : Host.rooted.stack.frames = [{ message := selfCall }] := rfl
  have told : Result.decode
      (serveCall (Engine.bequeathing Address.zero stranger (Result.success 0).encode)
        Observer.recorder () ⟨Host.rooted, []⟩ selfCall.encode.toList).1.toList
      = .ok (Result.success 0) := by decide +kernel
  have spec := serveCall_all_or_nothing
    (Engine.bequeathing Address.zero stranger (Result.success 0).encode) () live
    selfCall.encode.toList
  -- the run itself need not be looked at again
  generalize serveCall _ _ _ _ _ = served at told spec ⊢
  obtain ⟨result, diff, decoded, frames, merged, -⟩ := spec
  obtain rfl := Except.ok.inj (told.symm.trans decoded)
  obtain ⟨before, inner, ending, child, shown, ended, rfl⟩ := merged rfl
  exact ⟨before, inner, ending, child, shown, ended, frames⟩

/-! ## Answers after a call that did not succeed -/

/-- **A call that does not succeed leaves heirs, and nothing else to see.**  Every question is
answered as before the call, unless it looks at the presence of an account that the call made for
an heir.  Such an account exists afterwards, without code, and with the balance that it had or
with zero. -/
theorem serveCall_unsuccessful (engine : Engine σ) (state : σ) {host : Host} {frame : Frame}
    {below : List Frame} (live : host.stack.frames = frame :: below) (sent : Bytes) :
    let served := serveCall engine Observer.recorder state ⟨host, []⟩ sent
    ∀ result, Result.decode served.1.toList = .ok result → result.status ≠ .success →
      (∀ query : Query,
        (∀ address, query.account? = some address → Bequeathed served.2.2.notes address →
          host.store.contains address = true) →
        (served.2.2.host.answer query).1 = (host.answer query).1) ∧
      ∀ address, host.store.contains address = false → Bequeathed served.2.2.notes address →
        (served.2.2.host.answer (.accountExists address)).1 = true ∧
        (served.2.2.host.answer (.codeHash address)).1 = Account.emptyCodeHash ∧
        (served.2.2.host.answer (.balance address)).1
          = (Word.ofNat ((host.visibleBalance address).getD 0)).toList := by
  intro served result decoded failed
  obtain ⟨moments, run, noted⟩ := serveCall_served engine Observer.recorder state host [] sent
  rw [Observer.recorder_notesOn, List.nil_append] at noted
  have frames : served.2.2.host.stack = host.stack := by
    rw [CallStack.mk.injEq, live]
    exact run.dropped live decoded failed
  have setting := run.session.sameSetting
  have grown := run.session.store_extends
  have accounts := run.session.contains_iff live
  rw [← noted] at accounts
  refine ⟨fun query spared => ?_, fun address unknown named => ?_⟩
  · refine Host.answer_of_grown frames setting grown query fun address asks => ?_
    rw [Bool.eq_iff_iff, accounts]
    exact or_iff_left_of_imp (spared address asks)
  · have gained := (accounts address).2 (.inr named)
    refine ⟨?_, Host.codeHash_of_gained grown gained unknown, ?_⟩
    · exact Bool.or_eq_true_iff.2 (.inl gained)
    · have visible : served.2.2.host.visibleBalance address
          = some ((host.visibleBalance address).getD 0) :=
        Host.visibleBalance_of_gained grown gained unknown frames
      have current := CallStack.current?_of_live (frames ▸ live)
      simp only [Host.answer, Host.balance, visible, current]

/-- After a reverted call that destroyed an account, all slots read as before, and the heir has the
balance zero. -/
theorem rooted_call_reverted :
    let served := serveCall (Engine.bequeathing Address.zero stranger (Result.revert 0).encode)
      Observer.recorder () ⟨Host.rooted, []⟩ selfCall.encode.toList
    (∀ address key, (served.2.2.host.answer (.slot address key)).1
      = (Host.rooted.answer (.slot address key)).1) ∧
    (served.2.2.host.answer (.balance stranger)).1 = Word.zero.toList := by
  have live : Host.rooted.stack.frames = [{ message := selfCall }] := rfl
  have run : Result.decode
      (serveCall (Engine.bequeathing Address.zero stranger (Result.revert 0).encode)
        Observer.recorder () ⟨Host.rooted, []⟩ selfCall.encode.toList).1.toList
      = .ok (Result.revert 0) ∧
      Bequeathed (serveCall (Engine.bequeathing Address.zero stranger (Result.revert 0).encode)
        Observer.recorder () ⟨Host.rooted, []⟩ selfCall.encode.toList).2.2.notes stranger := by
    decide +kernel
  have spec := serveCall_unsuccessful
    (Engine.bequeathing Address.zero stranger (Result.revert 0).encode) () live
    selfCall.encode.toList
  -- the run itself need not be looked at again
  generalize serveCall _ _ _ _ _ = served at run spec ⊢
  obtain ⟨spared, heirs⟩ := spec (Result.revert 0) run.1 (by decide)
  refine ⟨fun address key => spared _ (by simp [Query.account?]), ?_⟩
  obtain ⟨-, -, balance⟩ := heirs stranger (by decide +kernel) run.2
  exact balance

/-- The heir of a reverted call is known afterwards, and was not before. -/
theorem unsuccessful_call_leaves_heir :
    let served := serveCall (Engine.bequeathing Address.zero stranger (Result.revert 0).encode)
      Observer.recorder () ⟨Host.rooted, []⟩ selfCall.encode.toList
    Result.decode served.1.toList = .ok (Result.revert 0) ∧
      (Result.revert 0).status ≠ .success ∧
      (Host.rooted.answer (.accountExists stranger)).1 = false ∧
      (served.2.2.host.answer (.accountExists stranger)).1 = true := by
  decide +kernel

end ContractHost
