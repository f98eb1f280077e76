import ContractHost.Proofs.Run

/-!
# Journals

A journal is the simplest thing that could follow a run: one value that every question updates in
place, saved whenever an engine starts and put back whenever a nested one ends without success.
It knows neither frames nor diffs.

The frames of a host *track* a journal if their diffs agree with its current value, in a sense that
has to survive three things: a new frame, an answered question, and the merging of a frame into the
one below (`Tracks`).  Then they agree at every moment of every run, and so does the diff that an
execution returns.  That a frame which is lost takes its changes with it needs no further argument,
because the frames below it are what they were when it was pushed.

* **`Session.tracks`** — the induction over everything an engine can do.
* **`execute_tracks`** — the same for a whole execution.
-/

namespace ContractHost

variable {σ α : Type}

/-- What a run is followed by. -/
structure Journal (α : Type) where
  /-- The value right now. -/
  current : α
  /-- The values when the engines that are still running started, the latest first. -/
  saved : List α := []

namespace Journal

variable (update : Query → α → α)

/-- What an event does to a journal.  The value is never put back when the root ends, since what
becomes of its changes is not for the host to say. -/
def step (journal : Journal α) : Event → Journal α
  | .started _ _ _ => ⟨journal.current, journal.current :: journal.saved⟩
  | .answered query _ => ⟨update query journal.current, journal.saved⟩
  | .ended ending =>
    match journal.saved with
    | start :: caller :: outer =>
      ⟨if ending.succeeded then journal.current else start, caller :: outer⟩
    | _ => ⟨journal.current, []⟩
  | _ => journal

/-- The value at the moment of an event, while the frame of an engine that ended is still there. -/
def seen (journal : Journal α) : Event → α
  | .answered query _ => update query journal.current
  | _ => journal.current

def replay (journal : Journal α) (moments : List Moment) : Journal α :=
  moments.foldl (fun journal moment => journal.step update moment.event) journal

@[simp] lemma replay_nil (journal : Journal α) : journal.replay update [] = journal := rfl

@[simp] lemma replay_cons (journal : Journal α) (moment : Moment) (moments : List Moment) :
    journal.replay update (moment :: moments)
      = (journal.step update moment.event).replay update moments := rfl

@[simp] lemma replay_append (journal : Journal α) (before after : List Moment) :
    journal.replay update (before ++ after)
      = (journal.replay update before).replay update after :=
  List.foldl_append

variable {update}

/-- Every moment is right for the journal as it is then. -/
def Along (update : Query → α → α) (right : Journal α → Moment → Prop) :
    Journal α → List Moment → Prop
  | _, [] => True
  | journal, moment :: moments =>
    right journal moment ∧ Along update right (journal.step update moment.event) moments

lemma along_append {right : Journal α → Moment → Prop} {journal : Journal α}
    {before after : List Moment} :
    journal.Along update right (before ++ after)
      ↔ journal.Along update right before ∧
        (journal.replay update before).Along update right after := by
  induction before generalizing journal with
  | nil => simp [Along]
  | cons moment before ih => simp [Along, ih, and_assoc]

/-- The moment between two parts of a run is right for the journal after the first. -/
lemma Along.at_split {right : Journal α → Moment → Prop} {journal : Journal α}
    {before after : List Moment} {moment : Moment}
    (along : journal.Along update right (before ++ moment :: after)) :
    right (journal.replay update before) moment := by
  obtain ⟨-, here, -⟩ := along_append.1 along
  exact here

end Journal

/-! ## Tracking -/

/-- Agreement of diffs with a value that survives whatever a host does to its frames while its
store only gains empty accounts. -/
structure Tracks (start : Store) (update : Query → α → α) (agrees : List FrameDiff → α → Prop) :
    Prop where
  /-- A new frame has changed nothing. -/
  enter : ∀ {diffs : List FrameDiff} {current : α},
    agrees diffs current → agrees ({} :: diffs) current
  /-- What a question records in the diff on top is what it does to the value. -/
  answer : ∀ {host : Host} {diff : FrameDiff} {below : List FrameDiff} {current : α}
    (query : Query), host.stack.diffs = diff :: below → host.store.Extends start →
    agrees (diff :: below) current →
    agrees (query.record host diff :: below) (update query current)
  /-- A diff may be merged into the one below it. -/
  merge : ∀ {child parent : FrameDiff} {below : List FrameDiff} {current : α},
    agrees (child :: parent :: below) current → agrees (parent.merge child :: below) current

/-- The moment agrees with the journal, and so did the host that a question was put to. -/
structure Faithful (start : Store) (update : Query → α → α)
    (agrees : List FrameDiff → α → Prop) (journal : Journal α) (moment : Moment) : Prop where
  grown : moment.host.store.Extends start
  agrees_seen : agrees moment.host.stack.diffs (journal.seen update moment.event)
  asked : ∀ query answer, moment.event = .answered query answer → ∃ host : Host,
    host.answer query = (answer, moment.host) ∧ host.store.Extends start ∧
      agrees host.stack.diffs journal.current

section Tracking

variable {start : Store} {update : Query → α → α} {agrees : List FrameDiff → α → Prop}

/-- A moment at which nothing is answered. -/
lemma Faithful.of_silent {journal : Journal α} {host : Host} {event : Event}
    (grown : host.store.Extends start) (holds : agrees host.stack.diffs journal.current)
    (silent : ∀ query answer, event ≠ .answered query answer) :
    Faithful start update agrees journal ⟨host, event⟩ where
  grown := grown
  agrees_seen := by
    cases event with
    | answered query answer => exact absurd rfl (silent query answer)
    | started | ended | calling | replied => exact holds
  asked := fun query answer same => absurd same (silent query answer)

/-- When a frame ends, the frames below agree with what it reached or with what it started from. -/
lemma Tracks.conclude (tracks : Tracks start update agrees) {caller inner : Host}
    {frame child : Frame} {below : List Frame} (live : caller.stack.frames = frame :: below)
    (ended : inner.stack.frames = child :: frame :: below) {current reached : α}
    (before : agrees caller.stack.diffs current) (after : agrees inner.stack.diffs reached)
    (ending : Ending) :
    agrees (inner.conclude caller.stack.size ending).2.stack.diffs
      (if ending.succeeded then reached else current) := by
  rw [CallStack.diffs_of_live ended, List.map_cons] at after
  rw [CallStack.diffs_of_live live] at before
  rw [CallStack.diffs_of_live (Host.conclude_frames live ended ending)]
  split_ifs
  · exact tracks.merge after
  · exact before

/-- **Frames that track a journal agree with it at every moment of a session.** -/
theorem Session.tracks (tracks : Tracks start update agrees) {host last : Host}
    {moments : List Moment} (session : Session host moments last) {frame : Frame}
    {below : List Frame} (live : host.stack.frames = frame :: below)
    (grown : host.store.Extends start) {current : α}
    (holds : agrees host.stack.diffs current) (opened : α) (outer : List α) :
    ∃ final, (Journal.mk current (opened :: outer)).replay update moments
        = ⟨final, opened :: outer⟩ ∧
      agrees last.stack.diffs final ∧
      (Journal.mk current (opened :: outer)).Along update (Faithful start update agrees)
        moments := by
  induction session generalizing frame below current opened outer with
  | idle host => exact ⟨current, rfl, holds, trivial⟩
  | @asked host last moments query rest ih =>
      obtain ⟨lent, answered⟩ := Host.answer_frames live query
      have diffs := CallStack.diffs_of_live live
      have grown' := (host.answer_extends query).trans grown
      have holds' : agrees (host.answer query).2.stack.diffs (update query current) := by
        rw [Host.answer_diffs live]
        exact tracks.answer query diffs grown (diffs ▸ holds)
      obtain ⟨final, replayed, agreed, along⟩ := ih answered grown' holds' opened outer
      refine ⟨final, replayed, agreed, ⟨grown', holds', ?_⟩, along⟩
      intro query' answer' same
      cases same
      exact ⟨host, rfl, grown, holds⟩
  | @refused host last moments sent outcome refusal rest ih =>
      have live' : (host.settle outcome).2.stack.frames = frame :: below := by
        rwa [refusal.settle_stack]
      have grown' : (host.settle outcome).2.store.Extends start := by
        rwa [Host.settle_store]
      have holds' : agrees (host.settle outcome).2.stack.diffs current := by
        rwa [refusal.settle_stack]
      obtain ⟨final, replayed, agreed, along⟩ := ih live' grown' holds' opened outer
      refine ⟨final, replayed, agreed, ?_, ?_, along⟩
      · exact Faithful.of_silent grown holds (by simp)
      · exact Faithful.of_silent grown' holds' (by simp)
  | @called host inner last during moments sent input handed message ending admission run rest
      ihRun ihRest =>
      -- the new frame starts from what the caller sees
      have holdsIn : agrees (host.enter message).stack.diffs current := tracks.enter holds
      obtain ⟨reached, replayedRun, agreedRun, alongRun⟩ :=
        ihRun (Host.enter_frames live message) grown holdsIn current (opened :: outer)
      -- it ends above the frames that it started above
      obtain ⟨child, ended, -⟩ := run.top (Host.enter_frames live message)
      have grownRun : inner.store.Extends start := run.store_extends.trans grown
      have grown' : (inner.conclude host.stack.size ending).2.store.Extends start := by
        rwa [Host.conclude_store]
      have holds' := tracks.conclude live ended holds agreedRun ending
      obtain ⟨final, replayed, agreed, along⟩ :=
        ihRest (Host.conclude_frames live ended ending) grown' holds' opened outer
      refine ⟨final, ?_, agreed, ?_⟩
      · simp only [Journal.replay_cons, Journal.replay_append, Journal.step, replayedRun, replayed]
      · refine ⟨?_, ?_, Journal.along_append.2 ⟨alongRun, ?_⟩⟩
        · exact Faithful.of_silent grown holds (by simp)
        · exact Faithful.of_silent grown holdsIn (by simp)
        · simp only [Journal.step, replayedRun]
          refine ⟨?_, ?_, along⟩
          · exact Faithful.of_silent grownRun agreedRun (by simp)
          · exact Faithful.of_silent grown' holds' (by simp)

/-! ## Whole executions -/

/-- The frame at the root tracks a journal as every other frame does. -/
lemma Visit.tracks (tracks : Tracks start update agrees) {host last : Host}
    {message : CallMessage} {input : Bytes} {outcome : Except Fault Outcome}
    {moments : List Moment} (visit : Visit host message input outcome moments last)
    (idle : host.stack.frames = []) (grown : host.store.Extends start) {current : α}
    (holds : agrees [] current) :
    (Journal.mk current []).Along update (Faithful start update agrees) moments ∧
      ∀ kept, outcome = .ok kept →
        agrees [kept.diff] ((Journal.mk current []).replay update moments).current := by
  have untouched : agrees [{}] current := tracks.enter holds
  cases visit with
  | tooDeep deep =>
      refine ⟨trivial, ?_⟩
      rintro _ ⟨⟩
      exact untouched
  | tooLong shallow unpackable => exact ⟨trivial, by rintro _ ⟨⟩⟩
  | @ran inner during handed ending shallow packs run =>
      have entered := Host.enter_frames idle message
      have holdsIn : agrees (host.enter message).stack.diffs current := by
        rwa [CallStack.diffs_of_live entered]
      obtain ⟨reached, replayed, agreed, along⟩ :=
        run.tracks tracks entered grown holdsIn current []
      obtain ⟨child, ended, -⟩ := run.top entered
      rw [Host.leave_top idle ended]
      refine ⟨⟨?_, Journal.along_append.2 ⟨along, ?_, trivial⟩⟩, ?_⟩
      · exact Faithful.of_silent grown holdsIn (by simp)
      · simp only [Journal.step, replayed]
        exact Faithful.of_silent (run.store_extends.trans grown) agreed (by simp)
      · intro kept finished
        rw [Outcome.diff_of_ending finished]
        simp only [Journal.replay_cons, Journal.replay_append, Journal.step, replayed]
        simpa [CallStack.diffs, ended] using agreed

/-- **The diff that an execution returns agrees with the journal at its end,** and the frames of
the host agreed with it at every moment before. -/
theorem execute_tracks (tracks : Tracks start update agrees) (engine : Engine σ) (state : σ)
    {host : Host} (idle : host.stack.frames = []) (grown : host.store.Extends start) {current : α}
    (holds : agrees [] current) (message : CallMessage) (input : Bytes) :
    let run := execute engine Observer.recorder state ⟨host, []⟩ message input
    (Journal.mk current []).Along update (Faithful start update agrees) run.2.2.notes ∧
      ∀ execution, run.1 = .ok execution →
        agrees [execution.diff] ((Journal.mk current []).replay update run.2.2.notes).current := by
  intro run
  obtain ⟨outcome, last, visit, answer, -⟩ := execute_visits (rfl : _ = run)
  obtain ⟨along, returned⟩ := visit.tracks tracks idle grown holds
  refine ⟨along, fun execution answered => ?_⟩
  rw [answer, reported_eq_ok] at answered
  obtain ⟨-, kept, finished, rfl⟩ := answered
  exact returned kept finished

end Tracking

end ContractHost
