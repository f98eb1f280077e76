import ContractHost.Proofs.Header
import ContractHost.Proofs.Session

/-!
# Every run is a session

Whatever an engine does, the run of a message by it is a `Visit`, a nested call of it is `Served`,
and every observer notes what a fold over the moments gives.  So what holds of sessions holds of
all engines, whatever state they keep and however deep their calls nest.

* **`runMessage_visits`** — a call at the root, or any other call before it is settled.
* **`serveCall_served`** — a nested call, as an engine makes it.
* **`execute_visits`** — a whole execution.

The bound on the recursion of `runInFrame` disappears here: the number of levels that are left is
the distance of the top frame's depth from the limit (`levelsFrom_deeper`), because a session never
changes the message of its frame.
-/

namespace ContractHost

variable {σ τ : Type}

/-! ## Levels and depths -/

lemma deeper_of_room {depth : UInt32} (room : depth.toNat + 1 < UInt32.size) :
    (deeper depth).toNat = depth.toNat + 1 := by
  rw [deeper, if_pos room, UInt32.toNat_add, UInt32.toNat_one, Nat.mod_eq_of_lt room]

namespace Host

lemma levelsFrom_eq_zero {host : Host} {depth : UInt32} (exhausted : host.levelsFrom depth = 0) :
    host.settings.maxCallDepth ≤ depth := by
  rw [UInt32.le_iff_toNat_le]
  unfold levelsFrom at exhausted
  omega

lemma lt_of_levelsFrom {host : Host} {depth : UInt32} {levels : Nat}
    (left : host.levelsFrom depth = levels + 1) : depth < host.settings.maxCallDepth := by
  rw [UInt32.lt_iff_toNat_lt]
  unfold levelsFrom at left
  omega

/-- Above the limit there is a level left. -/
lemma exists_levels {host : Host} {depth : UInt32} (shallow : depth < host.settings.maxCallDepth) :
    ∃ levels, host.levelsFrom depth = levels + 1 :=
  Nat.exists_eq_add_one_of_ne_zero (Nat.sub_pos_of_lt (UInt32.lt_iff_toNat_lt.1 shallow)).ne'

lemma levelsFrom_of_le {host : Host} {depth : UInt32} (deep : host.settings.maxCallDepth ≤ depth) :
    host.levelsFrom depth = 0 :=
  Nat.sub_eq_zero_of_le (UInt32.le_iff_toNat_le.1 deep)

/-- One level deeper there is one level less. -/
lemma levelsFrom_deeper {host : Host} {depth : UInt32} {levels : Nat}
    (left : host.levelsFrom depth = levels + 1) : host.levelsFrom (deeper depth) = levels := by
  have limit := host.settings.maxCallDepth.toNat_lt
  unfold levelsFrom at left ⊢
  have room : depth.toNat + 1 < UInt32.size := by
    simp only [UInt32.size] at limit ⊢
    omega
  rw [deeper_of_room room]
  omega

/-- A frame of the given depth is on top, under the given settings. -/
structure RunsAt (host : Host) (settings : Settings) (depth : UInt32) : Prop where
  settings_eq : host.settings = settings
  top : ∃ frame below, host.stack.frames = frame :: below ∧ frame.depth = depth

end Host

lemma Session.runsAt {host last : Host} {moments : List Moment}
    (session : Session host moments last) {settings : Settings} {depth : UInt32}
    (running : host.RunsAt settings depth) : last.RunsAt settings depth := by
  obtain ⟨frame, below, live, deep⟩ := running.top
  obtain ⟨top, ended, message⟩ := session.top live
  exact ⟨session.sameSetting.settings.trans running.settings_eq,
    top, below, ended, by rw [Frame.depth, message]; exact deep⟩

lemma Host.RunsAt.depthFor {host : Host} {settings : Settings} {depth : UInt32}
    (running : host.RunsAt settings depth) (message : CallMessage) :
    host.depthFor message = deeper depth := by
  obtain ⟨frame, below, live, rfl⟩ := running.top
  simp [Host.depthFor, CallStack.current?, live]

/-- A frame that was entered is on top. -/
lemma Host.runsAt_enter (host : Host) (message : CallMessage) :
    (host.enter message).RunsAt host.settings message.depth :=
  ⟨rfl, { message }, host.stack.frames, rfl, rfl⟩

/-- Hosts with the same settings have the same levels left. -/
lemma Host.RunsAt.levelsFrom_eq {host other : Host} {depth : UInt32}
    (running : host.RunsAt other.settings depth) (place : UInt32) :
    host.levelsFrom place = other.levelsFrom place := by
  rw [Host.levelsFrom, running.settings_eq, Host.levelsFrom]

/-! ## The runs -/

/-- From the given host, the run of a message is a visit, and the observer is shown its moments. -/
def RunsAsVisit (watch : Observer τ) (run : MessageRunner σ τ) (host : Host)
    (message : CallMessage) : Prop :=
  ∀ (state : σ) (notes : τ) (input : Bytes), ∃ moments,
    Visit host message input (run state ⟨host, notes⟩ message input).1 moments
      (run state ⟨host, notes⟩ message input).2.2.host ∧
    (run state ⟨host, notes⟩ message input).2.2.notes = watch.notesOn notes moments

/-- From the given host, every nested call is run as a visit. -/
def ServesVisits (watch : Observer τ) (run : MessageRunner σ τ) (host : Host) : Prop :=
  ∀ message : CallMessage, RunsAsVisit watch run host (message.withDepth (host.depthFor message))

/-- A nested call is served as the relation says, if its message is run as a visit. -/
lemma serveCallWith_served {watch : Observer τ} {run : MessageRunner σ τ} {host : Host}
    (visits : ServesVisits watch run host) (state : σ) (notes : τ) (sent : Bytes) :
    ∃ moments,
      Served host sent (serveCallWith watch run state ⟨host, notes⟩ sent).1 moments
        (serveCallWith watch run state ⟨host, notes⟩ sent).2.2.host ∧
      (serveCallWith watch run state ⟨host, notes⟩ sent).2.2.notes
        = watch.notesOn notes moments := by
  simp only [serveCallWith, runPackedWith, World.note]
  cases readable : CallMessage.unpack sent with
  | error fault => exact ⟨_, .refused (.malformed readable), rfl⟩
  | ok read =>
      obtain ⟨message, input⟩ := read
      obtain ⟨moments, visit, noted⟩ :=
        visits message state (watch notes host (.calling sent)) input
      simp only [noted]
      generalize run state _ _ input = made at visit
      obtain ⟨outcome, state', host', notes'⟩ := made
      simp only at visit ⊢
      cases visit with
      | tooDeep deep => exact ⟨_, .refused (.tooDeep readable deep), rfl⟩
      | tooLong _ unpackable =>
          obtain ⟨handed, packs⟩ := CallMessage.pack_of_unpack readable
            (message.withDepth (host.depthFor message))
          rw [packs] at unpackable
          exact absurd unpackable (by simp)
      | ran ending shallow packs session =>
          exact ⟨_, .called ending ⟨⟨message, readable, rfl⟩, shallow, packs⟩ session,
            by simp [Host.conclude]⟩

/-- What a program does while its frame is on top is a session, if its nested calls are run as
visits. -/
lemma Program.run_session {watch : Observer τ} {run : MessageRunner σ τ} {settings : Settings}
    {depth : UInt32}
    (visits : ∀ host : Host, host.RunsAt settings depth → ServesVisits watch run host)
    (program : Program σ) (host : Host) (running : host.RunsAt settings depth) (notes : τ) :
    ∃ moments,
      Session host moments
        (program.run ⟨World.ask watch, serveCallWith watch run⟩ ⟨host, notes⟩).2.2.host ∧
      (program.run ⟨World.ask watch, serveCallWith watch run⟩ ⟨host, notes⟩).2.2.notes
        = watch.notesOn notes moments := by
  induction program generalizing host notes with
  | finish state reply => exact ⟨[], .idle host, rfl⟩
  | crash state reason => exact ⟨[], .idle host, rfl⟩
  | ask query next ih =>
      have asked : Session host _ (host.answer query).2 := .asked query (.idle _)
      obtain ⟨moments, session, noted⟩ := ih (host.answer query).1 (host.answer query).2
        (asked.runsAt running) (watch notes (host.answer query).2 (.answered query _))
      exact ⟨_, .asked query session, noted⟩
  | call state sent next ih =>
      obtain ⟨before, served, noted⟩ := serveCallWith_served (visits host running) state notes sent
      simp only [Program.run]
      generalize serveCallWith watch run state ⟨host, notes⟩ sent = made at served noted
      obtain ⟨reply, state', host', notes'⟩ := made
      simp only at served noted ⊢
      obtain ⟨after, session, noted'⟩ :=
        ih state' reply host' (served.session.runsAt running) notes'
      exact ⟨before ++ after, served.session.append session, by
        rw [noted', noted, Observer.notesOn_append]⟩

/-- With as many levels as the depth of the message leaves, its run is a visit. -/
theorem runInFrame_visits (engine : Engine σ) (watch : Observer τ) (levels : Nat) :
    ∀ (host : Host) (message : CallMessage), host.levelsFrom message.depth = levels →
      RunsAsVisit watch (runInFrame engine watch levels) host message := by
  induction levels with
  | zero =>
      intro host message exhausted state notes input
      exact ⟨[], .tooDeep (Host.levelsFrom_eq_zero exhausted), rfl⟩
  | succ levels ih =>
      intro host message left state notes input
      have shallow := Host.lt_of_levelsFrom left
      simp only [runInFrame]
      cases packs : message.pack input with
      | error fault => exact ⟨[], .tooLong shallow packs, rfl⟩
      | ok handed =>
          have entered := host.runsAt_enter message
          have visits : ∀ inner : Host, inner.RunsAt host.settings message.depth →
              ServesVisits watch (runInFrame engine watch levels) inner := by
            intro inner running nested
            rw [running.depthFor]
            refine ih inner _ ?_
            exact (running.levelsFrom_eq _).trans (Host.levelsFrom_deeper left)
          obtain ⟨during, session, noted⟩ := Program.run_session visits
            (engine.start state host.settings.revision handed (host.codeFor message input))
            (host.enter message) entered
            (watch notes (host.enter message)
              (.started host.settings.revision handed (host.codeFor message input)))
          simp only [World.note]
          generalize Program.run _ _ _ = ran at session noted
          obtain ⟨ending, state', inner, notes'⟩ := ran
          simp only at session noted ⊢
          exact ⟨_, .ran ending shallow packs session, by simp [noted]⟩

/-- **The run of a message is a visit,** whatever the engine, its state and the observer. -/
theorem runMessage_visits (engine : Engine σ) (watch : Observer τ) (host : Host)
    (message : CallMessage) : RunsAsVisit watch (runMessage engine watch) host message :=
  fun state notes input => runInFrame_visits engine watch _ host message rfl state notes input

/-- **A nested call of an engine is served as the relation says.** -/
theorem serveCall_served (engine : Engine σ) (watch : Observer τ) (state : σ) (host : Host)
    (notes : τ) (sent : Bytes) :
    ∃ moments,
      Served host sent (serveCall engine watch state ⟨host, notes⟩ sent).1 moments
        (serveCall engine watch state ⟨host, notes⟩ sent).2.2.host ∧
      (serveCall engine watch state ⟨host, notes⟩ sent).2.2.notes
        = watch.notesOn notes moments :=
  serveCallWith_served (fun _ => runMessage_visits engine watch host _) state notes sent

/-! ## Executions -/

/-- What an execution is answered with, given the first fault that was kept and what came of the
call at the root. -/
def reported (message : CallMessage) : Option Fault → Except Fault Outcome → Except Fault Execution
  | some fault, _ => .error fault
  | none, .error fault => .error fault
  | none, .ok outcome => .ok ⟨message.gas, outcome.result, outcome.diff⟩

lemma reported_eq_ok {message : CallMessage} {kept : Option Fault}
    {outcome : Except Fault Outcome} {execution : Execution} :
    reported message kept outcome = .ok execution
      ↔ kept = none ∧ ∃ finished, outcome = .ok finished ∧
        ⟨message.gas, finished.result, finished.diff⟩ = execution := by
  cases kept <;> cases outcome <;> simp [reported]

/-- An execution reports the run of its message without an earlier fault. -/
lemma execute_answer (engine : Engine σ) (watch : Observer τ) (state : σ) (host : Host) (notes : τ)
    (message : CallMessage) (input : Bytes) :
    let ran := runMessage engine watch state ⟨{ host with fault := none }, notes⟩ message input
    (execute engine watch state ⟨host, notes⟩ message input).1
      = reported message ran.2.2.host.fault ran.1 := by
  simp only [execute]
  generalize runMessage engine watch state _ message input = made
  obtain ⟨outcome, after, last, notes⟩ := made
  cases last.fault <;> cases outcome <;> rfl

/-- **An execution is a visit without an earlier fault,** and it reports the first fault, or what
came of the visit. -/
theorem execute_visits {engine : Engine σ} {state : σ} {host : Host} {message : CallMessage}
    {input : Bytes} {run : Except Fault Execution × σ × World (List Moment)}
    (ran : execute engine Observer.recorder state ⟨host, []⟩ message input = run) :
    ∃ outcome last, Visit { host with fault := none } message input outcome run.2.2.notes last ∧
      run.1 = reported message last.fault outcome ∧
      run.2.2.host = { last with fault := none } := by
  obtain ⟨moments, visit, noted⟩ := runMessage_visits engine Observer.recorder
    { host with fault := none } message state [] input
  rw [Observer.recorder_notesOn, List.nil_append] at noted
  subst noted ran
  exact ⟨_, _, visit, execute_answer engine Observer.recorder state host [] message input, rfl⟩

end ContractHost
