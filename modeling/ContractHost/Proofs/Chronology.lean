import ContractHost.Proofs.Run

/-!
# One moment after the other

A session says what an engine may do, call by call.  The same run can be read as a walk from moment
to moment: `Follows` says which moment may come right after which, and a `Trail` is a walk along
it.  A fact about every moment of a run is then a fact about one step, and neither knows how deep
the calls nest.

* `Follows` — the six things that can happen next.
* **`Session.trail`** and **`Session.frame_trail`** — every run is a trail.
* `Trail.forall` — what every step keeps holds at every moment; `Trail.split` — what follows a
  moment in the middle of a run.
-/

namespace ContractHost

/-! ## Steps -/

/-- After such an event the engine of the frame on top goes on. -/
def Event.Resumes : Event → Prop
  | .started _ _ _ | .answered _ _ | .replied _ => True
  | .calling _ | .ended _ => False

/-- What may happen right after a moment. -/
inductive Follows : Moment → Moment → Prop where
  /-- The engine asks a question. -/
  | asked {host : Host} {event : Event} (resumes : event.Resumes) (query : Query) :
      Follows ⟨host, event⟩ ⟨(host.answer query).2, .answered query (host.answer query).1⟩
  /-- The engine makes a nested call. -/
  | called {host : Host} {event : Event} (resumes : event.Resumes) (sent : Bytes) :
      Follows ⟨host, event⟩ ⟨host, .calling sent⟩
  /-- The engine comes to its end. -/
  | ended {host : Host} {event : Event} (resumes : event.Resumes) (ending : Ending) :
      Follows ⟨host, event⟩ ⟨host, .ended ending⟩
  /-- The call is answered without an engine. -/
  | refused {host : Host} {sent : Bytes} {outcome : Except Fault Outcome}
      (refusal : Refusal host sent outcome) :
      Follows ⟨host, .calling sent⟩ ⟨(host.settle outcome).2, .replied (host.settle outcome).1⟩
  /-- The call reaches an engine. -/
  | admitted {host : Host} {sent input handed : Bytes} {message : CallMessage}
      (admission : Admission host sent message input handed) :
      Follows ⟨host, .calling sent⟩
        ⟨host.enter message,
          .started host.settings.revision handed (host.codeFor message input)⟩
  /-- The frame that ended is taken off, and its caller gets a reply. -/
  | returned {host : Host} {child frame : Frame} {below : List Frame}
      (live : host.stack.frames = child :: frame :: below) (ending : Ending) :
      Follows ⟨host, .ended ending⟩
        ⟨(host.conclude (frame :: below).length ending).2,
          .replied (host.conclude (frame :: below).length ending).1⟩

/-- The frames after a return, in terms of the frames before it. -/
lemma Host.returned_frames {host : Host} {child frame : Frame} {below : List Frame}
    (live : host.stack.frames = child :: frame :: below) (ending : Ending) :
    (host.conclude (frame :: below).length ending).2.stack.frames
      = { frame with
          diff := if ending.succeeded then frame.diff.merge child.diff else frame.diff } ::
        below := by
  have caller : ({ host with stack := ⟨frame :: below⟩ } : Host).stack.frames = frame :: below :=
    rfl
  exact conclude_frames caller live ending

/-- A step adds at most empty accounts to the store. -/
lemma Follows.store_extends {earlier later : Moment} (follows : Follows earlier later) :
    later.host.store.Extends earlier.host.store := by
  cases follows with
  | asked resumes query => exact Host.answer_extends _ query
  | called | ended | admitted => exact Store.Extends.refl _
  | refused refusal =>
      rw [Host.settle_store]
      exact Store.Extends.refl _
  | returned live ending =>
      rw [Host.conclude_store]
      exact Store.Extends.refl _

/-! ## Trails -/

/-- A walk from a first moment along some moments to the last of them. -/
inductive Trail : Moment → List Moment → Moment → Prop where
  | here (moment : Moment) : Trail moment [] moment
  | step {first next last : Moment} {moments : List Moment} (follows : Follows first next)
      (rest : Trail next moments last) : Trail first (next :: moments) last

section Trail

variable {first middle last : Moment} {before moments after : List Moment}

lemma Trail.append (early : Trail first before middle) (late : Trail middle after last) :
    Trail first (before ++ after) last := by
  induction early with
  | here => exact late
  | step follows _ ih => exact .step follows (ih late)

/-- What every step keeps holds at every moment, if it holds at the first.  What is known of all
moments anyway may be used for that. -/
theorem Trail.forall (known holds : Moment → Prop)
    (keeps : ∀ {earlier later : Moment}, Follows earlier later → known earlier → known later →
      holds earlier → holds later)
    (trail : Trail first moments last) (all : ∀ moment ∈ first :: moments, known moment)
    (start : holds first) : ∀ moment ∈ first :: moments, holds moment := by
  induction trail with
  | here moment => simpa using start
  | step follows _ ih =>
      rw [List.forall_mem_cons] at all ⊢
      have next := keeps follows all.1 (all.2 _ List.mem_cons_self) start
      exact ⟨start, ih all.2 next⟩

/-- A moment of a trail is the last one, or some other follows it. -/
lemma Trail.split (trail : Trail first moments last)
    (shown : first :: moments = before ++ middle :: after) :
    (after = [] ∧ middle = last) ∨ ∃ next rest, after = next :: rest ∧ Follows middle next := by
  induction trail generalizing before with
  | here moment =>
      rw [List.cons_eq_append_iff] at shown
      rcases shown with ⟨rfl, same⟩ | ⟨_, -, impossible⟩
      · cases same
        exact .inl ⟨rfl, rfl⟩
      · simp at impossible
  | @step first next last moments follows rest ih =>
      rw [List.cons_eq_append_iff] at shown
      rcases shown with ⟨rfl, same⟩ | ⟨earlier, -, later⟩
      · cases same
        exact .inr ⟨next, moments, rfl, follows⟩
      · exact ih later

end Trail

/-! ## Runs are trails -/

/-- **A session is a trail,** from any moment at which its engine goes on to another such one. -/
theorem Session.trail {host last : Host} {moments : List Moment}
    (session : Session host moments last) {frame : Frame} {below : List Frame}
    (live : host.stack.frames = frame :: below) (event : Event) (resumes : event.Resumes) :
    ∃ final : Event, final.Resumes ∧ Trail ⟨host, event⟩ moments ⟨last, final⟩ := by
  induction session generalizing frame below event with
  | idle host => exact ⟨event, resumes, .here _⟩
  | asked query _ ih =>
      obtain ⟨lent, answered⟩ := Host.answer_frames live query
      obtain ⟨final, goes, trail⟩ := ih answered (.answered query _) trivial
      exact ⟨final, goes, .step (.asked resumes query) trail⟩
  | refused refusal _ ih =>
      obtain ⟨final, goes, trail⟩ := ih (Host.settle_frames live _) (.replied _) trivial
      exact ⟨final, goes, .step (.called resumes _) (.step (.refused refusal) trail)⟩
  | @called host inner last during moments sent input handed message ending admission run rest
      ihRun ihRest =>
      have entered := Host.enter_frames live message
      obtain ⟨child, ended, -⟩ := run.top entered
      obtain ⟨halted, halts, early⟩ := ihRun entered (.started _ _ _) trivial
      obtain ⟨final, goes, late⟩ :=
        ihRest (Host.conclude_frames live ended ending) (.replied _) trivial
      have size : host.stack.size = (frame :: below).length := by rw [CallStack.size, live]
      rw [size] at late ⊢
      refine ⟨final, goes, .step (.called resumes sent) (.step (.admitted admission) ?_)⟩
      exact early.append (.step (.ended halts ending) (.step (.returned ended ending) late))

/-- **The run of a whole frame is a trail** from the start of its engine to its end, and the frame
lies where it was pushed. -/
theorem Session.frame_trail {host inner : Host} {message : CallMessage} {during : List Moment}
    (run : Session (host.enter message) during inner) (revision : Revision) (handed code : Bytes)
    (ending : Ending) :
    (∃ child, inner.stack.frames = child :: host.stack.frames) ∧
      Trail ⟨host.enter message, .started revision handed code⟩ (during ++ [⟨inner, .ended ending⟩])
        ⟨inner, .ended ending⟩ := by
  have entered := Host.enter_frames (rfl : host.stack.frames = _) message
  obtain ⟨child, ended, -⟩ := run.top entered
  obtain ⟨final, goes, trail⟩ := run.trail entered (.started revision handed code) trivial
  exact ⟨⟨child, ended⟩, trail.append (.step (.ended goes ending) (.here _))⟩

end ContractHost
