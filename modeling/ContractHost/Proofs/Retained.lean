import ContractHost.Proofs.Chronology

/-!
# What frames hand down

What a question records belongs at first to the frame that asked it.  When that frame ends in
success, it belongs to the frame below, and so on; when a frame ends otherwise, it is lost.  So one
can read off the events alone what the frame on top has at any time: everything that was recorded
in it, or in a frame that has ended in success together with all frames in between.

* `departures` — how the frames ended that were left while some moments passed.
* `retains` — whether the frame on top still has what was recorded before some moments;
  `retained` — all that it has, in the order of time.
* `Underway` — a session of the frame on top that has led to a moment in the middle of a run, and
  **`Visit.asked`** — there is one whenever a question is asked.
* `Recording` — a part of the diff that grows with the questions and is joined by a merge.
* **`Session.recorded`**, **`Visit.recorded`** and **`Underway.recorded`** — such a part of a diff
  is what was retained.
-/

namespace ContractHost

variable {α : Type}

/-! ## Frames that were left -/

/-- How the frames ended that were live before some moments and are gone after them, the innermost
first; nothing at all if a frame that was entered meanwhile is still live. -/
def departures : List Moment → Option (List Ending)
  | [] => some []
  | ⟨_, .started _ _ _⟩ :: moments =>
    match departures moments with
    | some (_ :: outer) => some outer
    | _ => none
  | ⟨_, .ended ending⟩ :: moments => (departures moments).map (ending :: ·)
  | _ :: moments => departures moments

/-- What the frame on top had before some moments belongs to the frame on top after them: this is
the same frame or lies below it, and all frames that were left ended in success. -/
def retains (moments : List Moment) : Bool := (departures moments).any (·.all Ending.succeeded)

/-- What the questions of some moments recorded and the frame on top after them has, oldest first:
it was recorded in that frame, or in one that ended in success together with all in between. -/
def retained (entryOf : Query → Option α) : List Moment → List α
  | [] => []
  | ⟨_, .answered query _⟩ :: moments =>
    (if retains moments then (entryOf query).toList else []) ++ retained entryOf moments
  | _ :: moments => retained entryOf moments

section Departures

variable {moments before after : List Moment} {endings : List Ending}

lemma departures_append (left : departures before = some endings) (after : List Moment) :
    departures (before ++ after) = (departures after).map (endings ++ ·) := by
  induction before generalizing endings with
  | nil =>
      cases left
      simp
  | cons moment before ih =>
      obtain ⟨host, event⟩ := moment
      cases event with
      | started revision handed code =>
          cases rest : departures before with
          | none => simp [departures, rest] at left
          | some inner =>
              cases inner with
              | nil => simp [departures, rest] at left
              | cons ending outer =>
                  simp only [departures, rest, Option.some.injEq] at left
                  subst left
                  simp only [List.cons_append, departures, ih rest]
                  cases departures after <;> rfl
      | ended ending =>
          cases rest : departures before with
          | none => simp [departures, rest] at left
          | some inner =>
              simp only [departures, rest, Option.map_some, Option.some.injEq] at left
              subst left
              simp only [List.cons_append, departures, ih rest, Option.map_map]
              rfl
      | answered | calling | replied => exact ih left

lemma retains_ended (host : Host) (ending : Ending) (moments : List Moment) :
    retains (⟨host, .ended ending⟩ :: moments) = (ending.succeeded && retains moments) := by
  simp only [retains, departures]
  cases departures moments <;> simp

lemma retains_replied (host : Host) (reply : Reply) (moments : List Moment) :
    retains (⟨host, .replied reply⟩ :: moments) = retains moments := rfl

/-- A frame that is still live hides everything before it was entered. -/
lemma departures_append_of_none (unfinished : departures after = none) (before : List Moment) :
    departures (before ++ after) = none := by
  induction before with
  | nil => exact unfinished
  | cons moment before ih =>
      obtain ⟨host, event⟩ := moment
      cases event with
      | started | ended => simp only [List.cons_append, departures, ih, Option.map_none]
      | answered | calling | replied => exact ih

lemma retained_append_of_none (entryOf : Query → Option α) (unfinished : departures after = none)
    (before : List Moment) : retained entryOf (before ++ after) = retained entryOf after := by
  induction before with
  | nil => rfl
  | cons moment before ih =>
      obtain ⟨host, event⟩ := moment
      cases event with
      | answered query answer =>
          simp [retained, retains, departures_append_of_none unfinished, ih]
      | started | ended | calling | replied => exact ih

/-- What is retained was recorded by a question, and all frames left since ended in success. -/
lemma mem_retained {entryOf : Query → Option α} {entry : α} :
    entry ∈ retained entryOf moments ↔ ∃ before host query answer after,
      moments = before ++ ⟨host, .answered query answer⟩ :: after ∧ entryOf query = some entry ∧
        retains after = true := by
  induction moments with
  | nil => simp [retained]
  | cons moment moments ih =>
      have later : (∃ before host query answer after,
          moments = before ++ ⟨host, .answered query answer⟩ :: after ∧
            entryOf query = some entry ∧ retains after = true) →
          ∃ before host query answer after,
            moment :: moments = before ++ ⟨host, .answered query answer⟩ :: after ∧
              entryOf query = some entry ∧ retains after = true := by
        rintro ⟨before, host, query, answer, after, rfl, recorded⟩
        exact ⟨moment :: before, host, query, answer, after, rfl, recorded⟩
      rw [← ih] at later
      constructor
      · intro member
        obtain ⟨host, event⟩ := moment
        cases event with
        | answered query answer =>
            rw [retained, List.mem_append] at member
            rcases member with here | there
            · split_ifs at here with kept
              · exact ⟨[], host, query, answer, moments, rfl, Option.mem_toList.1 here, kept⟩
              · simp at here
            · exact later there
        | started | ended | calling | replied => exact later member
      · rintro ⟨before, host, query, answer, after, shown, recorded, kept⟩
        rw [List.cons_eq_append_iff] at shown
        rcases shown with ⟨rfl, same⟩ | ⟨rest, rfl, same⟩
        · cases same
          simp [retained, kept, recorded]
        · have member := ih.2 ⟨rest, host, query, answer, after, same, recorded, kept⟩
          obtain ⟨_, event⟩ := moment
          cases event with
          | answered => exact List.mem_append_right _ member
          | started | ended | calling | replied => exact member

end Departures

/-! ## Sessions -/

section Session

variable {host last : Host} {moments : List Moment}

/-- A session leaves no frame but those that it enters. -/
lemma Session.departures_eq (session : Session host moments last) :
    departures moments = some [] := by
  induction session with
  | idle => rfl
  | asked _ _ ih => exact ih
  | refused _ _ ih => exact ih
  | called ending _ _ _ ihRun ihRest =>
      simp only [departures, departures_append ihRun, ihRest, Option.map_some, List.nil_append]

lemma Session.retains_eq (session : Session host moments last) : retains moments = true :=
  congrArg (Option.any _) session.departures_eq

lemma Session.retains_append (session : Session host moments last) (after : List Moment) :
    retains (moments ++ after) = retains after := by
  simp only [retains, departures_append session.departures_eq, List.nil_append, Option.map_id']

/-- What a session recorded is lost later with its frame, all of it or nothing. -/
lemma Session.retained_append (session : Session host moments last) (entryOf : Query → Option α)
    (after : List Moment) :
    retained entryOf (moments ++ after)
      = (if retains after then retained entryOf moments else []) ++ retained entryOf after := by
  induction session generalizing after with
  | idle => simp [retained]
  | @asked _ _ moments query rest ih =>
      simp only [List.cons_append, retained, ih, rest.retains_eq, rest.retains_append, if_true]
      split_ifs <;> simp
  | refused _ _ ih => exact ih after
  | @called _ _ _ during moments _ _ _ _ ending _ run rest ihRun ihRest =>
      -- the frame that ended in between has handed on what it had, or not
      simp only [List.cons_append, List.append_assoc, retained, ihRun, ihRest, retains_ended,
        retains_replied, rest.retains_eq, rest.retains_append, Bool.and_true]
      cases retains after <;> cases ending.succeeded <;> simp

end Session

/-! ## In the middle of a run -/

/-- The frame on top was entered while some moments passed, and all that came after its start is a
session of it. -/
inductive Underway : List Moment → Host → Prop where
  | since (outer : List Moment) {caller host : Host} {message : CallMessage} {revision : Revision}
      {handed code : Bytes} {during : List Moment}
      (session : Session (caller.enter message) during host) :
      Underway (outer ++ ⟨caller.enter message, .started revision handed code⟩ :: during) host

lemma Underway.append {host last : Host} {past moments : List Moment}
    (underway : Underway past host) (session : Session host moments last) :
    Underway (past ++ moments) last := by
  obtain ⟨outer, before⟩ := underway
  rw [List.append_assoc, List.cons_append]
  exact .since outer (before.append session)

lemma Underway.live {host : Host} {past : List Moment} (underway : Underway past host) :
    ∃ frame below, host.stack.frames = frame :: below := by
  obtain ⟨outer, session⟩ := underway
  obtain ⟨top, live, -⟩ := session.top (Host.enter_frames rfl _)
  exact ⟨top, _, live⟩

/-- Every moment is right for those before it. -/
def Throughout (right : List Moment → Moment → Prop) : List Moment → List Moment → Prop
  | _, [] => True
  | past, moment :: moments => right past moment ∧ Throughout right (past ++ [moment]) moments

section Throughout

variable {right : List Moment → Moment → Prop} {past before after : List Moment} {moment : Moment}

lemma throughout_append :
    Throughout right past (before ++ after)
      ↔ Throughout right past before ∧ Throughout right (past ++ before) after := by
  induction before generalizing past with
  | nil => simp [Throughout]
  | cons first before ih => simp [Throughout, ih, and_assoc]

lemma Throughout.at_split (all : Throughout right past (before ++ moment :: after)) :
    right (past ++ before) moment :=
  (throughout_append.1 all).2.1

end Throughout

/-- If the engine goes on after a moment, a session of its frame has led there. -/
def Traced (past : List Moment) (moment : Moment) : Prop :=
  moment.event.Resumes → Underway (past ++ [moment]) moment.host

/-- **Whenever an engine goes on, all that came after its start is a session of its frame.** -/
theorem Session.traced {host last : Host} {moments past : List Moment}
    (session : Session host moments last) (underway : Underway past host) :
    Throughout Traced past moments := by
  induction session generalizing past with
  | idle => trivial
  | asked query _ ih =>
      have answered := underway.append (.asked query (.idle _))
      exact ⟨fun _ => answered, ih answered⟩
  | refused refusal _ ih =>
      have replied := underway.append (.refused refusal (.idle _))
      rw [List.append_cons] at replied
      exact ⟨False.elim, fun _ => replied, ih replied⟩
  | @called host _ _ _ _ sent input handed message ending admission run _ ihRun ihRest =>
      have entered : Underway (past ++ [⟨host, .calling sent⟩] ++ [⟨host.enter message,
          .started host.settings.revision handed (host.codeFor message input)⟩])
          (host.enter message) := .since _ (.idle _)
      have replied := underway.append (.called ending admission run (.idle _))
      rw [List.append_cons, List.append_cons, ← List.append_assoc, List.append_cons] at replied
      exact ⟨False.elim, fun _ => entered,
        throughout_append.2 ⟨ihRun entered, False.elim, fun _ => replied, ihRest replied⟩⟩

/-- The same holds from the start of a whole run on. -/
lemma Visit.traced {host last : Host} {message : CallMessage} {input : Bytes}
    {outcome : Except Fault Outcome} {moments : List Moment}
    (visit : Visit host message input outcome moments last) : Throughout Traced [] moments := by
  cases visit with
  | tooDeep | tooLong => trivial
  | @ran inner during handed ending shallow packs run =>
      have entered : Underway [⟨host.enter message,
          .started host.settings.revision handed (host.codeFor message input)⟩]
          (host.enter message) := .since [] (.idle _)
      exact ⟨fun _ => entered, throughout_append.2 ⟨run.traced entered, False.elim, trivial⟩⟩

/-- **Where the answers of a run come from.**  The host that was asked is that of the moment before,
and a session of the frame on top has led to it. -/
theorem Visit.asked {host last later : Host} {message : CallMessage} {input : Bytes}
    {outcome : Except Fault Outcome} {moments before after : List Moment} {query : Query}
    {answer : query.Answer} (visit : Visit host message input outcome moments last)
    (shown : moments = before ++ ⟨later, .answered query answer⟩ :: after) :
    ∃ earlier, before.getLast? = some earlier ∧ Underway before earlier.host ∧
      earlier.host.answer query = (answer, later) := by
  have traced := visit.traced
  cases visit with
  | tooDeep | tooLong => simp at shown
  | @ran inner during handed ending shallow packs run =>
      cases before using List.reverseRecOn with
      | nil => simp at shown
      | append_singleton early earlier =>
          rw [List.append_assoc, List.singleton_append] at shown
          rw [shown] at traced
          obtain ⟨-, trail⟩ := run.frame_trail host.settings.revision handed
            (host.codeFor message input) ending
          rcases trail.split shown with ⟨impossible, -⟩ | ⟨next, rest, same, follows⟩
          · simp at impossible
          · cases same
            cases follows with
            | asked resumes => exact ⟨_, by simp, traced.at_split resumes, rfl⟩

/-! ## Parts of a diff -/

/-- A part of a diff that a new frame starts empty, to which each question adds its entry, if it
has one, and that a merge joins. -/
structure Recording (entryOf : Query → Option α) (holds : FrameDiff → List α → Prop) : Prop where
  enter : holds {} []
  answer : ∀ (host : Host) (query : Query) {diff : FrameDiff} {entries : List α},
    holds diff entries → holds (query.record host diff) (entries ++ (entryOf query).toList)
  merge : ∀ {older newer : FrameDiff} {early late : List α},
    holds older early → holds newer late → holds (older.merge newer) (early ++ late)

section Recording

variable {entryOf : Query → Option α} {holds : FrameDiff → List α → Prop}

/-- **What a session adds to the diff of its frame is what the session retains.** -/
theorem Session.recorded (recording : Recording entryOf holds) {host last : Host}
    {moments : List Moment} (session : Session host moments last) {frame : Frame}
    {below : List Frame} (live : host.stack.frames = frame :: below) {entries : List α}
    (held : holds frame.diff entries) :
    ∃ top, last.stack.frames = top :: below ∧
      holds top.diff (entries ++ retained entryOf moments) := by
  induction session generalizing frame below entries with
  | idle host => exact ⟨frame, live, by rwa [retained, List.append_nil]⟩
  | asked query rest ih =>
      obtain ⟨lent, answered⟩ := Host.answer_frames live query
      obtain ⟨top, ended, reached⟩ := ih answered (recording.answer _ query held)
      refine ⟨top, ended, ?_⟩
      rwa [retained, if_pos rest.retains_eq, ← List.append_assoc]
  | refused refusal _ ih => exact ih (by rw [refusal.settle_stack, live]) held
  | @called _ _ _ during _ _ _ _ _ ending _ run rest ihRun ihRest =>
      obtain ⟨child, ended, inside⟩ := ihRun (Host.enter_frames live _) recording.enter
      -- what the child had is merged, or lost
      have joined : holds (if ending.succeeded then frame.diff.merge child.diff else frame.diff)
          (entries ++ if ending.succeeded then retained entryOf during else []) := by
        cases ending.succeeded with
        | true => exact recording.merge held inside
        | false => rwa [if_neg Bool.false_ne_true, if_neg Bool.false_ne_true, List.append_nil]
      obtain ⟨top, ended', reached⟩ := ihRest (Host.conclude_frames live ended ending) joined
      refine ⟨top, ended', ?_⟩
      simp only [retained, run.retained_append, retains_ended, retains_replied, rest.retains_eq,
        Bool.and_true]
      rwa [← List.append_assoc]

/-- **What comes of a visit is what its frame retains.**  The end of this frame does not count,
since what becomes of the frame is not settled yet. -/
theorem Visit.recorded (recording : Recording entryOf holds) {host last : Host}
    {message : CallMessage} {input : Bytes} {outcome : Outcome} {moments : List Moment}
    (visit : Visit host message input (.ok outcome) moments last)
    (idle : host.stack.frames = []) :
    holds outcome.diff (retained entryOf moments.dropLast) := by
  generalize made : Except.ok outcome = answer at visit
  cases visit with
  | tooDeep deep =>
      cases made
      exact recording.enter
  | tooLong shallow unpackable => cases made
  | @ran inner during handed ending shallow packs session =>
      obtain ⟨child, ended, reached⟩ := session.recorded recording
        (Host.enter_frames idle message) recording.enter
      rw [List.nil_append] at reached
      rw [Outcome.diff_of_ending made.symm, Host.leave_top idle ended, ← List.cons_append,
        List.dropLast_concat]
      exact reached

/-- **In the middle of a run the frame on top has what is retained so far.** -/
theorem Underway.recorded (recording : Recording entryOf holds) {host : Host}
    {moments : List Moment} (underway : Underway moments host) :
    ∃ frame below, host.stack.frames = frame :: below ∧
      holds frame.diff (retained entryOf moments) := by
  obtain @⟨outer, caller, _, message, revision, handed, code, during, session⟩ := underway
  obtain ⟨top, ended, reached⟩ := session.recorded recording (Host.enter_frames rfl message)
    recording.enter
  have unfinished : departures (⟨caller.enter message, .started revision handed code⟩ :: during)
      = none := by
    simp only [departures, session.departures_eq]
  refine ⟨top, _, ended, ?_⟩
  rw [retained_append_of_none entryOf unfinished]
  exact reached

end Recording

end ContractHost
