import ContractHost.Host.Execution
import ContractHost.Proofs.Answer

/-!
# Sessions

What an engine does while its frame is on top of the stack is a *session*: it asks questions, and
it makes nested calls, each of which is refused or holds a whole session of another frame.
`Session host moments last` says that a session may lead from one host to another, and what an
observer is shown on the way.  It knows nothing of engines, of their states or of levels, so a fact
about every run of every engine is a fact about sessions, and its proof an induction with one case
for each thing an engine can do.

* `Observer.recorder` keeps all moments of a run; what any other observer notes is a fold over
  them (`Observer.notesOn`).
* `Session` — the moments of one frame; `Served` — those of one nested call; `Visit` — those of
  one call with its outcome, before anything is settled in a caller.
* **`Session.top`** — a session never touches the frames below its own.
-/

namespace ContractHost

variable {σ τ : Type}

/-! ## Moments -/

/-- Something that happened during a run, and the host as it was right then. -/
structure Moment where
  host : Host
  event : Event

namespace Observer

/-- Keeps every moment of a run, oldest first. -/
def recorder : Observer (List Moment) := fun moments host event => moments ++ [⟨host, event⟩]

/-- What an observer notes when it is shown some moments. -/
def notesOn (watch : Observer τ) (notes : τ) (moments : List Moment) : τ :=
  moments.foldl (fun notes moment => watch notes moment.host moment.event) notes

@[simp] lemma notesOn_nil (watch : Observer τ) (notes : τ) : watch.notesOn notes [] = notes := rfl

@[simp] lemma notesOn_cons (watch : Observer τ) (notes : τ) (moment : Moment)
    (moments : List Moment) :
    watch.notesOn notes (moment :: moments)
      = watch.notesOn (watch notes moment.host moment.event) moments := rfl

@[simp] lemma notesOn_append (watch : Observer τ) (notes : τ) (before after : List Moment) :
    watch.notesOn notes (before ++ after) = watch.notesOn (watch.notesOn notes before) after :=
  List.foldl_append

/-- The recorder notes exactly the moments it is shown. -/
lemma recorder_notesOn (notes moments : List Moment) :
    recorder.notesOn notes moments = notes ++ moments := by
  induction moments generalizing notes with
  | nil => simp
  | cons moment moments ih => simp [ih, recorder]

end Observer

/-! ## The relation -/

namespace Host

/-- Ends the frame on top of a stack that had `size` frames without it: the frame is taken off, and
what came of it is settled in the frame that made the call. -/
def conclude (host : Host) (size : Nat) (ending : Ending) : Reply × Host :=
  (host.leave size).2.settle (Outcome.ofEnding ending (host.leave size).1)

end Host

/-- A nested call that no engine runs, with its outcome. -/
inductive Refusal (host : Host) (packed : Bytes) : Except Fault Outcome → Prop where
  | malformed {fault : Fault} (unreadable : CallMessage.unpack packed = .error fault) :
      Refusal host packed (.error fault)
  | tooDeep {message : CallMessage} {input : Bytes}
      (readable : CallMessage.unpack packed = .ok (message, input))
      (deep : host.settings.maxCallDepth ≤ host.depthFor message) :
      Refusal host packed
        (.ok (.rejected (.depthExceeded (host.depthFor message) host.settings.maxCallDepth)))

/-- A nested call that an engine runs: what it is as sent, the message at its own depth, and what
the engine is handed. -/
structure Admission (host : Host) (sent : Bytes) (message : CallMessage) (input : Bytes)
    (handed : Bytes) : Prop where
  /-- The call can be read, and runs one level below its caller. -/
  readable : ∃ original, CallMessage.unpack sent = .ok (original, input) ∧
    message = original.withDepth (host.depthFor original)
  shallow : message.depth < host.settings.maxCallDepth
  packs : message.pack input = .ok handed

/-- What an engine may do while its frame is on top: the host before, the moments shown to an
observer, and the host after. -/
inductive Session : Host → List Moment → Host → Prop where
  | idle (host : Host) : Session host [] host
  | asked {host last : Host} {moments : List Moment} (query : Query)
      (rest : Session (host.answer query).2 moments last) :
      Session host
        (⟨(host.answer query).2, .answered query (host.answer query).1⟩ :: moments) last
  | refused {host last : Host} {moments : List Moment} {sent : Bytes}
      {outcome : Except Fault Outcome} (refusal : Refusal host sent outcome)
      (rest : Session (host.settle outcome).2 moments last) :
      Session host
        (⟨host, .calling sent⟩ ::
          ⟨(host.settle outcome).2, .replied (host.settle outcome).1⟩ :: moments) last
  | called {host inner last : Host} {during moments : List Moment} {sent input handed : Bytes}
      {message : CallMessage} (ending : Ending)
      (admission : Admission host sent message input handed)
      (run : Session (host.enter message) during inner)
      (rest : Session (inner.conclude host.stack.size ending).2 moments last) :
      Session host
        (⟨host, .calling sent⟩ ::
          ⟨host.enter message,
            .started host.settings.revision handed (host.codeFor message input)⟩ ::
          (during ++ ⟨inner, .ended ending⟩ ::
            ⟨(inner.conclude host.stack.size ending).2,
              .replied (inner.conclude host.stack.size ending).1⟩ :: moments)) last

/-- A call, at the root or nested, from the host that makes it: its outcome, the moments, and the
host when its frame is gone. -/
inductive Visit (host : Host) (message : CallMessage) (input : Bytes) :
    Except Fault Outcome → List Moment → Host → Prop where
  | tooDeep (deep : host.settings.maxCallDepth ≤ message.depth) :
      Visit host message input
        (.ok (.rejected (.depthExceeded message.depth host.settings.maxCallDepth))) [] host
  | tooLong {fault : Fault} (shallow : message.depth < host.settings.maxCallDepth)
      (unpackable : message.pack input = .error fault) :
      Visit host message input (.error fault) [] host
  | ran {inner : Host} {during : List Moment} {handed : Bytes} (ending : Ending)
      (shallow : message.depth < host.settings.maxCallDepth)
      (packs : message.pack input = .ok handed)
      (run : Session (host.enter message) during inner) :
      Visit host message input (Outcome.ofEnding ending (inner.leave host.stack.size).1)
        (⟨host.enter message,
            .started host.settings.revision handed (host.codeFor message input)⟩ ::
          (during ++ [⟨inner, .ended ending⟩]))
        (inner.leave host.stack.size).2

/-- A nested call by itself: what it is answered with, the moments, and the host after it. -/
inductive Served (host : Host) (sent : Bytes) : Reply → List Moment → Host → Prop where
  | refused {outcome : Except Fault Outcome} (refusal : Refusal host sent outcome) :
      Served host sent (host.settle outcome).1
        [⟨host, .calling sent⟩, ⟨(host.settle outcome).2, .replied (host.settle outcome).1⟩]
        (host.settle outcome).2
  | called {inner : Host} {during : List Moment} {input handed : Bytes} {message : CallMessage}
      (ending : Ending) (admission : Admission host sent message input handed)
      (run : Session (host.enter message) during inner) :
      Served host sent (inner.conclude host.stack.size ending).1
        (⟨host, .calling sent⟩ ::
          ⟨host.enter message,
            .started host.settings.revision handed (host.codeFor message input)⟩ ::
          (during ++ [⟨inner, .ended ending⟩,
            ⟨(inner.conclude host.stack.size ending).2,
              .replied (inner.conclude host.stack.size ending).1⟩]))
        (inner.conclude host.stack.size ending).2

lemma Served.session {host last : Host} {sent : Bytes} {reply : Reply} {moments : List Moment}
    (served : Served host sent reply moments last) : Session host moments last := by
  cases served with
  | refused refusal => exact .refused refusal (.idle _)
  | called ending admission run => exact .called ending admission run (.idle _)

theorem Session.append {host middle last : Host} {before after : List Moment}
    (first : Session host before middle) (second : Session middle after last) :
    Session host (before ++ after) last := by
  induction first with
  | idle => exact second
  | asked query _ ih => exact .asked query (ih second)
  | refused refusal _ ih => exact .refused refusal (ih second)
  | called ending admission run _ _ ih =>
      have rest := Session.called ending admission run (ih second)
      simpa using rest

/-! ## What a call leaves behind -/

/-- The engine handed back a result, and its changes are to be kept. -/
def Ending.succeeded : Ending → Bool
  | .finished reply =>
    match Result.decode reply.toList with
    | .ok result => result.isSuccess
    | .error _ => false
  | .crashed _ => false

/-- The diff of an outcome is that of the frame. -/
lemma Outcome.diff_of_ending {ending : Ending} {diff : FrameDiff} {outcome : Outcome}
    (ended : Outcome.ofEnding ending diff = .ok outcome) : outcome.diff = diff := by
  cases ending with
  | crashed reason => simp [ofEnding] at ended
  | finished reply =>
      cases decoded : Result.decode reply.toList <;>
        simp only [ofEnding, decoded, reduceCtorEq, Except.ok.injEq] at ended
      rw [← ended]

/-- The caller's diff when a call is settled. -/
def FrameDiff.absorb (diff : FrameDiff) : Except Fault Outcome → FrameDiff
  | .ok outcome => if outcome.result.isSuccess then diff.merge outcome.diff else diff
  | .error _ => diff

/-- A call that is refused leaves the stack alone. -/
lemma Refusal.settle_stack {host : Host} {sent : Bytes} {outcome : Except Fault Outcome}
    (refusal : Refusal host sent outcome) : (host.settle outcome).2.stack = host.stack := by
  cases refusal with
  | malformed _ => rfl
  | tooDeep _ _ => rfl

lemma FrameDiff.absorb_ofEnding (diff child : FrameDiff) (ending : Ending) :
    diff.absorb (Outcome.ofEnding ending child)
      = if ending.succeeded then diff.merge child else diff := by
  cases ending with
  | crashed reason => rfl
  | finished reply =>
      cases decoded : Result.decode reply.toList <;>
        simp [Outcome.ofEnding, Ending.succeeded, FrameDiff.absorb, decoded]

namespace Host

variable {host : Host} {frame child : Frame} {below : List Frame}

/-- Settling a call changes the diff of the frame on top, and nothing else of any frame. -/
lemma settle_frames (live : host.stack.frames = frame :: below) (outcome : Except Fault Outcome) :
    (host.settle outcome).2.stack.frames
      = { frame with diff := frame.diff.absorb outcome } :: below := by
  cases outcome with
  | error fault => exact live
  | ok outcome =>
      simp only [settle, FrameDiff.absorb]
      split_ifs
      · exact CallStack.modifyCurrent_frames live _
      · exact live

lemma settle_store (host : Host) (outcome : Except Fault Outcome) :
    (host.settle outcome).2.store = host.store := by
  cases outcome with
  | error fault => rfl
  | ok outcome =>
      simp only [settle]
      split_ifs <;> rfl

lemma settle_sameSetting (host : Host) (outcome : Except Fault Outcome) :
    (host.settle outcome).2.SameSetting host := by
  cases outcome with
  | error fault => exact ⟨rfl, rfl, rfl⟩
  | ok outcome =>
      simp only [settle]
      split_ifs <;> exact ⟨rfl, rfl, rfl⟩

lemma enter_frames (live : host.stack.frames = below) (message : CallMessage) :
    (host.enter message).stack.frames = { message } :: below := by
  rw [enter, CallStack.push, live]

/-- Leaving takes exactly the frame off that was pushed, and hands out its diff. -/
lemma leave_top {caller : Host} (live : caller.stack.frames = below)
    (ended : host.stack.frames = child :: below) :
    host.leave caller.stack.size = (child.diff, { host with stack := ⟨below⟩ }) := by
  have surplus : (child :: below).length - caller.stack.size = 1 := by
    rw [CallStack.size, live, List.length_cons, Nat.add_sub_cancel_left]
  simp only [leave, CallStack.popTo, ended, surplus]
  rfl

/-- When a frame ends, its changes are merged into the frame below or lost. -/
lemma conclude_frames {caller : Host} (live : caller.stack.frames = frame :: below)
    (ended : host.stack.frames = child :: frame :: below) (ending : Ending) :
    (host.conclude caller.stack.size ending).2.stack.frames
      = { frame with
          diff := if ending.succeeded then frame.diff.merge child.diff else frame.diff } ::
        below := by
  rw [conclude, leave_top live ended, settle_frames rfl, FrameDiff.absorb_ofEnding]

lemma conclude_store (host : Host) (size : Nat) (ending : Ending) :
    (host.conclude size ending).2.store = host.store :=
  settle_store _ _

lemma conclude_sameSetting (host : Host) (size : Nat) (ending : Ending) :
    (host.conclude size ending).2.SameSetting host :=
  (settle_sameSetting _ _).trans ⟨rfl, rfl, rfl⟩

end Host

/-! ## What a session keeps -/

/-- **A session never touches the frames below its own,** and its own frame keeps its message. -/
theorem Session.top {host last : Host} {moments : List Moment} (session : Session host moments last)
    {frame : Frame} {below : List Frame} (live : host.stack.frames = frame :: below) :
    ∃ top, last.stack.frames = top :: below ∧ top.message = frame.message := by
  induction session generalizing frame below with
  | idle host => exact ⟨frame, live, rfl⟩
  | asked query _ ih =>
      obtain ⟨lent, answered⟩ := Host.answer_frames live query
      obtain ⟨top, ended, message⟩ := ih answered
      exact ⟨top, ended, message⟩
  | refused refusal _ ih =>
      obtain ⟨top, ended, message⟩ := ih (Host.settle_frames live _)
      exact ⟨top, ended, message⟩
  | called ending _ _ _ ihRun ihRest =>
      -- the session of the child leaves the frames of the caller alone
      obtain ⟨child, ended, -⟩ := ihRun (Host.enter_frames live _)
      obtain ⟨top, ended, message⟩ := ihRest (Host.conclude_frames live ended ending)
      exact ⟨top, ended, message⟩

/-- A session adds at most empty accounts to the store. -/
theorem Session.store_extends {host last : Host} {moments : List Moment}
    (session : Session host moments last) : last.store.Extends host.store := by
  induction session with
  | idle host => exact Store.Extends.refl _
  | @asked host _ _ query _ ih => exact ih.trans (host.answer_extends query)
  | refused _ _ ih => rwa [Host.settle_store] at ih
  | called ending _ _ _ ihRun ihRest =>
      rw [Host.conclude_store] at ihRest
      exact ihRest.trans ihRun

/-- A session changes neither the transaction nor the settings nor the block hashes. -/
theorem Session.sameSetting {host last : Host} {moments : List Moment}
    (session : Session host moments last) : last.SameSetting host := by
  induction session with
  | idle host => exact Host.SameSetting.refl _
  | @asked host _ _ query _ ih => exact ih.trans (host.answer_sameSetting query)
  | refused _ _ ih => exact ih.trans (Host.settle_sameSetting _ _)
  | called ending _ _ _ ihRun ihRest =>
      exact (ihRest.trans (Host.conclude_sameSetting _ _ _)).trans
        (ihRun.trans ⟨rfl, rfl, rfl⟩)

end ContractHost
