import ContractHost.Proofs.Chronology
import ContractHost.Proofs.Header

/-!
# Depths

A nested call may claim any depth.  The host does not believe it: the frame of the call lies one
level below its caller, and so the depths of the live frames count up from that of the root,
whatever the engines send.

* `Levelled` — the frames lie one level apart, and none of them reaches the limit.
* `Orderly` — this, at one moment, with the depth that an engine is told when it starts.
* **`Follows.orderly`** — every step keeps it.
* **`execute_depths`** — every moment of every execution, and which calls reach an engine.
-/

namespace ContractHost

variable {σ : Type}

/-- Below a limit there is always a level more. -/
lemma deeper_toNat {depth limit : UInt32} (shallow : depth < limit) :
    depth.toNat + 1 < UInt32.size ∧ (deeper depth).toNat = depth.toNat + 1 := by
  have below : depth.toNat < limit.toNat := UInt32.lt_iff_toNat_lt.1 shallow
  have bound : limit.toNat < UInt32.size := limit.toNat_lt
  have room : depth.toNat + 1 < UInt32.size := by omega
  exact ⟨room, deeper_of_room room⟩

/-! ## Frames at their levels -/

/-- The frames, the one on top first, lie one level apart from the depth of the root on, and none of
them reaches the limit. -/
def Levelled (root limit : UInt32) : List Frame → Prop
  | [] => True
  | frame :: below =>
    frame.depth.toNat = root.toNat + below.length ∧ frame.depth < limit ∧ Levelled root limit below

section Levelled

variable {root limit : UInt32} {frame : Frame} {below frames : List Frame}

/-- Only the message of a frame tells its depth. -/
lemma Levelled.of_message (levelled : Levelled root limit (frame :: below)) {changed : Frame}
    (same : changed.message = frame.message) : Levelled root limit (changed :: below) := by
  have depth : changed.depth = frame.depth := by rw [Frame.depth, same, Frame.depth]
  obtain ⟨level, shallow, rest⟩ := levelled
  exact ⟨by rw [depth, level], by rwa [depth], rest⟩

/-- Counted from the root, the depths count up. -/
lemma Levelled.depth_eq (levelled : Levelled root limit frames) {place : ℕ}
    (found : frames.reverse[place]? = some frame) :
    frame.depth.toNat = root.toNat + place := by
  induction frames with
  | nil => simp at found
  | cons top below ih =>
      obtain ⟨level, -, rest⟩ := levelled
      rw [List.reverse_cons, List.getElem?_append, List.length_reverse] at found
      split_ifs at found with inside
      · exact ih rest found
      · -- the frame on top is the last of them
        have last : place = below.length := by
          have := (List.getElem?_eq_some_iff.1 found).1
          simp only [List.length_singleton] at this
          omega
        subst last
        rw [Nat.sub_self, List.getElem?_cons_zero, Option.some.injEq] at found
        rw [← found, level]

/-- There are no more frames than levels. -/
lemma Levelled.length_le (levelled : Levelled root limit frames) (live : frames ≠ []) :
    root.toNat + frames.length ≤ limit.toNat := by
  cases frames with
  | nil => exact absurd rfl live
  | cons frame below =>
      obtain ⟨level, shallow, -⟩ := levelled
      have lower := UInt32.lt_iff_toNat_lt.1 shallow
      rw [List.length_cons]
      omega

end Levelled

/-! ## Moments -/

/-- A moment of a run at whose root a message of some depth runs: the frames are levelled, and an
engine that starts is told the depth of its frame. -/
structure Orderly (settings : Settings) (root : UInt32) (moment : Moment) : Prop where
  settings_eq : moment.host.settings = settings
  live : moment.host.stack.frames ≠ []
  levelled : Levelled root settings.maxCallDepth moment.host.stack.frames
  told : ∀ revision handed code, moment.event = .started revision handed code →
    ∃ frame below received input, moment.host.stack.frames = frame :: below ∧
      CallMessage.unpack handed = .ok (received, input) ∧ received.depth = frame.depth

/-- A frame that was just pushed lies one level above the others. -/
lemma Orderly.of_entered {host : Host} {message : CallMessage} {input handed : Bytes}
    {root : UInt32} (levelled : Levelled root host.settings.maxCallDepth host.stack.frames)
    (level : message.depth.toNat = root.toNat + host.stack.frames.length)
    (shallow : message.depth < host.settings.maxCallDepth)
    (packs : message.pack input = .ok handed) (revision : Revision) (code : Bytes) :
    Orderly host.settings root ⟨host.enter message, .started revision handed code⟩ where
  settings_eq := rfl
  live := List.cons_ne_nil _ _
  levelled := ⟨level, shallow, levelled⟩
  told := by
    rintro _ _ _ ⟨⟩
    exact ⟨{ message }, _, _, _, rfl, CallMessage.unpack_packed packs, rfl⟩

section Orderly

variable {settings : Settings} {root : UInt32}

/-- A moment at which no engine starts, and the frames have kept their messages. -/
lemma Orderly.of_message {earlier : Moment} (orderly : Orderly settings root earlier)
    {host : Host} {event : Event} {frame changed : Frame} {below : List Frame}
    (live : earlier.host.stack.frames = frame :: below)
    (kept : host.stack.frames = changed :: below) (same : changed.message = frame.message)
    (setting : host.settings = earlier.host.settings)
    (silent : ∀ revision handed code, event ≠ .started revision handed code) :
    Orderly settings root ⟨host, event⟩ where
  settings_eq := setting.trans orderly.settings_eq
  live := by
    rw [kept]
    exact List.cons_ne_nil _ _
  levelled := by
    have levelled := orderly.levelled
    rw [live] at levelled
    rw [kept]
    exact levelled.of_message same
  told := fun revision handed code started => absurd started (silent revision handed code)

/-- **Every step keeps the order.** -/
theorem Follows.orderly {earlier later : Moment} (follows : Follows earlier later)
    (orderly : Orderly settings root earlier) : Orderly settings root later := by
  obtain ⟨frame, below, live⟩ := List.exists_cons_of_ne_nil orderly.live
  cases follows with
  | asked resumes query =>
      obtain ⟨lent, answered⟩ := Host.answer_frames live query
      exact orderly.of_message live answered rfl (Host.answer_sameSetting _ query).settings
        (by simp)
  | called resumes sent => exact orderly.of_message live live rfl rfl (by simp)
  | ended resumes ending => exact orderly.of_message live live rfl rfl (by simp)
  | refused refusal =>
      exact orderly.of_message live (Host.settle_frames live _) rfl
        (Host.settle_sameSetting _ _).settings (by simp)
  | @admitted host sent input handed message admission =>
      obtain ⟨original, -, rfl⟩ := admission.readable
      obtain ⟨setting, -, levelled, -⟩ := orderly
      simp only at live setting levelled
      subst setting
      have current := CallStack.current?_of_live live
      have depth : host.depthFor original = deeper frame.depth := by
        simp only [Host.depthFor, current]
      have top := levelled
      rw [live] at top
      obtain ⟨level, shallow, -⟩ := top
      refine .of_entered levelled ?_ admission.shallow admission.packs _ _
      change (host.depthFor original).toNat = _
      rw [depth, (deeper_toNat shallow).2, level, live, List.length_cons]
      omega
  | @returned host child parent rest stacked ending =>
      have levelled := orderly.levelled
      simp only at stacked levelled
      rw [stacked] at levelled
      have caller :
          Orderly settings root ⟨{ host with stack := ⟨parent :: rest⟩ }, .ended ending⟩ :=
        ⟨orderly.settings_eq, List.cons_ne_nil _ _, levelled.2.2, by simp⟩
      exact caller.of_message rfl (Host.returned_frames stacked ending) rfl
        (Host.conclude_sameSetting _ _ _).settings (by simp)

/-! ## The gate -/

/-- What becomes of a nested call that can be read, from a frame on top.  It reaches an engine if
and only if there is a level for it; otherwise its caller is told so, with no gas left, and nothing
else has changed when it is. -/
structure Gated (limit : UInt32) (frame : Frame) (caller : Host) (next : Moment) : Prop where
  room : frame.depth.toNat + 1 < UInt32.size
  reaches_iff : (∃ revision handed code, next.event = .started revision handed code)
    ↔ frame.depth.toNat + 1 < limit.toNat
  rejected : ¬ frame.depth.toNat + 1 < limit.toNat →
    next = ⟨caller, .replied (Result.failure .callDepthExceeded).encode⟩

/-- A call that can be read is let through exactly if its own level is allowed. -/
lemma Follows.gated {caller : Host} {sent : Bytes} {next : Moment}
    (follows : Follows ⟨caller, .calling sent⟩ next)
    (orderly : Orderly settings root ⟨caller, .calling sent⟩) {frame : Frame} {below : List Frame}
    (live : caller.stack.frames = frame :: below) {read : CallMessage × Bytes}
    (readable : CallMessage.unpack sent = .ok read) :
    Gated settings.maxCallDepth frame caller next := by
  obtain ⟨setting, -, levelled, -⟩ := orderly
  simp only at setting levelled
  subst setting
  rw [live] at levelled
  obtain ⟨room, level⟩ := deeper_toNat levelled.2.1
  have current := CallStack.current?_of_live live
  have depth (message : CallMessage) : (caller.depthFor message).toNat = frame.depth.toNat + 1 := by
    simp only [Host.depthFor, current, level]
  cases follows with
  | asked resumes _ | called resumes _ | ended resumes _ => exact False.elim resumes
  | refused refusal =>
      cases refusal with
      | malformed unreadable => simp [readable] at unreadable
      | @tooDeep message input _ deep =>
          have full : ¬ frame.depth.toNat + 1 < caller.settings.maxCallDepth.toNat := by
            rw [← depth message, not_lt]
            exact UInt32.le_iff_toNat_le.1 deep
          exact ⟨room, ⟨by rintro ⟨_, _, _, ⟨⟩⟩, fun free => absurd free full⟩, fun _ => rfl⟩
  | admitted admission =>
      obtain ⟨original, -, rfl⟩ := admission.readable
      have free : frame.depth.toNat + 1 < caller.settings.maxCallDepth.toNat := by
        rw [← depth original]
        exact UInt32.lt_iff_toNat_lt.1 admission.shallow
      exact ⟨room, ⟨fun _ => free, fun _ => ⟨_, _, _, rfl⟩⟩, fun full => absurd free full⟩

/-! ## Whole runs -/

/-- From a root, every moment of a run is in order, and every call that can be read is let through
or rejected. -/
theorem Visit.orderly {host last : Host} {message : CallMessage} {input : Bytes}
    {outcome : Except Fault Outcome} {moments : List Moment}
    (visit : Visit host message input outcome moments last) (idle : host.stack.frames = []) :
    (∀ moment ∈ moments, Orderly host.settings message.depth moment) ∧
    ∀ before caller sent after, moments = before ++ ⟨caller, .calling sent⟩ :: after →
      ∀ read, CallMessage.unpack sent = .ok read →
        ∃ frame below next rest, caller.stack.frames = frame :: below ∧ after = next :: rest ∧
          Gated host.settings.maxCallDepth frame caller next := by
  cases visit with
  | tooDeep _ => simp
  | tooLong _ _ => simp
  | @ran inner during handed ending shallow packs visited =>
      obtain ⟨-, trail⟩ := visited.frame_trail host.settings.revision handed
        (host.codeFor message input) ending
      have start : Orderly host.settings message.depth ⟨host.enter message,
          .started host.settings.revision handed (host.codeFor message input)⟩ := by
        refine .of_entered ?_ ?_ shallow packs _ _
        · rw [idle]
          trivial
        · rw [idle, List.length_nil, Nat.add_zero]
      have orderly := trail.forall (fun _ => True) (Orderly host.settings message.depth)
        (fun follows _ _ earlier => follows.orderly earlier) (fun _ _ => trivial) start
      refine ⟨orderly, fun before caller sent after shown read readable => ?_⟩
      have here := orderly ⟨caller, .calling sent⟩ (by
        rw [shown]
        exact List.mem_append_right _ List.mem_cons_self)
      obtain ⟨frame, below, live⟩ := List.exists_cons_of_ne_nil here.live
      rcases trail.split shown with ⟨-, impossible⟩ | ⟨next, rest, rfl, follows⟩
      · simp at impossible
      · exact ⟨frame, below, next, rest, live, rfl, follows.gated here live readable⟩

end Orderly

/-! ## Executions -/

/-- **The depths of the frames count up from the root's.**  At every moment of an execution the
frame at each place from the root has the depth of the root and as many levels more, an engine that
starts is told this depth, which is below the limit, and there are no more frames than levels.  A
nested call that can be read reaches an engine if and only if the next level is allowed. -/
theorem execute_depths (engine : Engine σ) (state : σ) (store : Store) (txContext : TxContext)
    (settings : Settings) (blockHashes : Std.ExtTreeMap Int64 Word) (message : CallMessage)
    (input : Bytes) :
    let run := execute engine Observer.recorder state
      ⟨{ store, txContext, settings, blockHashes }, []⟩ message input
    (∀ moment ∈ run.2.2.notes,
      (∀ place frame, moment.host.stack.frames.reverse[place]? = some frame →
        frame.depth.toNat = message.depth.toNat + place) ∧
      moment.host.stack.frames.length ≤ settings.maxCallDepth.toNat - message.depth.toNat ∧
      ∀ revision handed code, moment.event = .started revision handed code →
        ∃ frame below received input, moment.host.stack.frames = frame :: below ∧
          CallMessage.unpack handed = .ok (received, input) ∧ received.depth = frame.depth ∧
          frame.depth < settings.maxCallDepth) ∧
    ∀ before caller sent after, run.2.2.notes = before ++ ⟨caller, .calling sent⟩ :: after →
      ∀ read, CallMessage.unpack sent = .ok read →
        ∃ frame below next rest, caller.stack.frames = frame :: below ∧ after = next :: rest ∧
          Gated settings.maxCallDepth frame caller next := by
  intro run
  obtain ⟨outcome, last, visit, -, -⟩ := execute_visits (rfl : _ = run)
  obtain ⟨orderly, gated⟩ := visit.orderly rfl
  refine ⟨fun moment member => ?_, gated⟩
  obtain ⟨-, live, levelled, told⟩ := orderly moment member
  refine ⟨fun place frame => levelled.depth_eq, ?_, fun revision handed code started => ?_⟩
  · exact Nat.le_sub_of_add_le' (levelled.length_le live)
  · obtain ⟨frame, below, received, input, top, unpacks, depth⟩ := told _ _ _ started
    rw [top] at levelled
    exact ⟨frame, below, received, input, top, unpacks, depth, levelled.2.1⟩

/-- What is sent with a nested call. -/
def Event.sent? : Event → Option Bytes
  | .calling sent => some sent
  | _ => none

/-- Calls itself, and calls itself again from there, on and on. -/
def Engine.diving : Engine Unit where
  name := "diving"
  version := "1"
  start _ _ _ _ :=
    .call () (CallMessage.plain Address.zero Address.zero 0).encode.toList fun _ _ =>
      .finish () (Result.success 0).encode

/-- Where two levels are allowed, the first call of it is let through.  The second one, from a frame
at depth one, is rejected, and nothing else has changed then. -/
theorem diving_depths :
    let run := execute Engine.diving Observer.recorder ()
      ⟨{ store := .empty, settings := { maxCallDepth := 2 } }, []⟩
      (CallMessage.plain Address.zero Address.zero 0) []
    ∃ before caller sent after, run.2.2.notes = before ++ ⟨caller, .calling sent⟩ ::
      ⟨caller, .replied (Result.failure .callDepthExceeded).encode⟩ :: after ∧
      ∃ frame below, caller.stack.frames = frame :: below ∧ frame.depth.toNat = 1 := by
  have ran :
      let run := execute Engine.diving Observer.recorder ()
        ⟨{ store := .empty, settings := { maxCallDepth := 2 } }, []⟩
        (CallMessage.plain Address.zero Address.zero 0) []
      ∃ moment ∈ run.2.2.notes, moment.host.stack.frames.length = 2 ∧
        moment.event.sent? = some (CallMessage.plain Address.zero Address.zero 0).encode.toList := by
    decide +kernel
  have spec := execute_depths Engine.diving () .empty {} { maxCallDepth := 2 } ∅
    (CallMessage.plain Address.zero Address.zero 0) []
  -- the run itself need not be looked at again
  generalize execute Engine.diving _ _ _ _ _ = run at ran spec ⊢
  obtain ⟨answer, state, world⟩ := run
  obtain ⟨levels, gated⟩ := spec
  obtain ⟨⟨caller, event⟩, member, two, told⟩ := ran
  obtain ⟨before, after, shown⟩ := List.append_of_mem member
  cases event with
  | calling sent =>
      simp only [Event.sent?, Option.some.injEq] at told
      have header := (CallMessage.plain Address.zero Address.zero 0).decode_encode []
      rw [List.append_nil, ← told] at header
      obtain ⟨frame, below, next, rest, live, rfl, gate⟩ := gated before caller sent after shown _
        ((CallMessage.unpack_of_accepted header).trans (if_pos rfl))
      -- the frame on top is the one at place one from the root
      have place : caller.stack.frames.reverse[1]? = some frame := by
        rw [List.getElem?_reverse (by rw [two]; decide), two, live]
        rfl
      have depth : frame.depth.toNat = 1 := (levels _ member).1 1 frame place
      have full : ¬ frame.depth.toNat + 1 < (2 : UInt32).toNat := by
        rw [depth]
        decide
      exact ⟨before, caller, sent, rest, by rw [shown, gate.rejected full], frame, below, live, depth⟩
  | _ => simp [Event.sent?] at told

end ContractHost
