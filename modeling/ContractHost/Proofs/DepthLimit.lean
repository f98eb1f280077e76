import ContractHost.Proofs.Conduct
import ContractHost.Proofs.Tandem

/-!
# What the limit of depth can do

The limit of depth does one thing: it rejects calls.  An execution in which it rejected none is the
same under any higher limit.  The machine, moreover, does not look at the depth of its frame, but
for the depth that it writes into its calls, which the host does not believe.  So for an execution
of the machine only the levels that are left count.

* `Machine.execute_parallel` — an instruction does the same at another depth, up to the depth in
  the calls that it makes; and so does a run (`Machine.run_parallel`).
* `Tandem.lowered` — executions of the machine at two depths, compared.
* `Moment.RejectsCall` and `Tandem.raised` — executions under two limits, compared until the first
  rejects a call.
* **`execute_limit`** — both statements.
-/

namespace ContractHost

/-- The same call at two depths; or the same bytes, when they cannot be read. -/
def SameCall (sent sent' : Bytes) : Prop :=
  ∃ depth, CallMessage.unpack sent'
    = (CallMessage.unpack sent).map fun read => (read.1.withDepth depth, read.2)

lemma SameCall.refl (sent : Bytes) : SameCall sent sent := by
  rw [SameCall]
  cases CallMessage.unpack sent with
  | error fault => exact ⟨0, rfl⟩
  | ok read => exact ⟨read.1.depth, rfl⟩

/-! ## The machine at another depth -/

namespace Machine

/-- Two steps that do the same, up to the depth in the calls that they make. -/
inductive Step.Parallel : Step → Step → Prop
  | next (state : State) : Parallel (.next state) (.next state)
  | halt (result : Result) : Parallel (.halt result) (.halt result)
  | ask (query : Query) {after after' : query.Answer → Step}
      (each : ∀ answer, Parallel (after answer) (after' answer)) :
      Parallel (.ask query after) (.ask query after')
  | call {sent sent' : Bytes} {after after' : Reply → Step} (same : SameCall sent sent')
      (each : ∀ reply, Parallel (after reply) (after' reply)) :
      Parallel (.call sent after) (.call sent' after')

namespace Step

lemma Parallel.refl (step : Step) : step.Parallel step := by
  induction step with
  | next state => exact .next state
  | halt result => exact .halt result
  | ask query after ih => exact .ask query ih
  | call sent after ih => exact .call (.refl sent) ih

lemma attempt_parallel {α : Type} {computation : Except Status α}
    {next next' : α → Except Status Step}
    (each : ∀ value, Parallel (attempt (next value)) (attempt (next' value))) :
    Parallel (attempt (computation >>= next)) (attempt (computation >>= next')) := by
  cases computation with
  | ok value => exact each value
  | error status => exact .halt _

lemma Parallel.andThen {step step' : Step} (parallel : step.Parallel step')
    {rest rest' : State → Program Unit}
    (further : ∀ state, (rest state).Parallel SameCall (rest' state)) :
    (step.andThen rest).Parallel SameCall (step'.andThen rest') := by
  induction parallel with
  | next state => exact further state
  | halt result => exact .finish () _
  | ask query _ ih => exact .ask query ih
  | call same _ ih => exact .call () same fun _ reply => ih reply

end Step

/-- The same setting at another depth. -/
def Setting.withDepth (setting : Setting) (depth : UInt32) : Setting :=
  { setting with message := setting.message.withDepth depth }

/-- A message is packed or not, whatever its depth. -/
lemma pack_parallel (message : CallMessage) (depth : UInt32) (input : Bytes)
    (after : Reply → Step) :
    Step.Parallel
      (Step.attempt <| match message.pack input with
        | .error _ => throw .failure
        | .ok packed => return .call packed after)
      (Step.attempt <| match (message.withDepth depth).pack input with
        | .error _ => throw .failure
        | .ok packed => return .call packed after) := by
  by_cases fits : input.length < UInt32.size
  · have packs : message.pack input = .ok _ := if_pos fits
    have packs' : (message.withDepth depth).pack input = .ok _ := if_pos fits
    rw [packs, packs']
    refine .call ⟨depth, ?_⟩ fun reply => .refl _
    rw [CallMessage.unpack_packed packs, CallMessage.unpack_packed packs']
    rfl
  · have packs : message.pack input = .error _ := if_neg fits
    have packs' : (message.withDepth depth).pack input = .error _ := if_neg fits
    rw [packs, packs']
    exact .halt _

lemma executeCall_parallel (setting : Setting) (depth : UInt32) (state : State) :
    Step.Parallel (Step.attempt (executeCall setting state))
      (Step.attempt (executeCall (setting.withDepth depth) state)) := by
  -- seven words are taken off the stack
  iterate 7 refine Step.attempt_parallel fun _ => ?_
  have still : (setting.withDepth depth).message.isStatic = setting.message.isStatic := rfl
  simp only [still]
  split_ifs
  · exact .halt _
  · refine Step.attempt_parallel fun _ => Step.attempt_parallel fun _ => ?_
    exact pack_parallel _ (deeper depth) _ _

/-- An instruction does the same at another depth, up to the depth in its call. -/
lemma execute_parallel (setting : Setting) (depth : UInt32) (state : State)
    (instruction : Instruction) :
    Step.Parallel (execute setting state instruction)
      (execute (setting.withDepth depth) state instruction) := by
  cases instruction with
  | call => exact executeCall_parallel setting depth state
  | log topicCount =>
      iterate 5 refine Step.attempt_parallel fun _ => ?_
      refine .ask _ fun answer => ?_
      cases answer <;> exact .refl _
  | _ => exact .refl _

/-- A run does the same at another depth, up to the depth in its calls. -/
lemma run_parallel (setting : Setting) (depth : UInt32) (code : Array UInt8) (limit place : ℕ)
    (state : State) :
    (run setting code limit place state).Parallel SameCall
      (run (setting.withDepth depth) code limit place state) := by
  induction limit generalizing place state with
  | zero => exact .finish () _
  | succ limit ih =>
      rw [run, run]
      split_ifs
      · exact .crash () _
      · exact .finish () _
      · exact (execute_parallel setting depth _ _).andThen fun state => ih _ state
      · exact .finish () _

lemma start_parallel {message : CallMessage} {depth : UInt32} {input handed handed' : Bytes}
    (packs : message.pack input = .ok handed)
    (packs' : (message.withDepth depth).pack input = .ok handed') (revision : Revision)
    (code : Bytes) :
    (start revision handed code).Parallel SameCall (start revision handed' code) := by
  rw [start, start, CallMessage.unpack_packed packs, CallMessage.unpack_packed packs']
  exact run_parallel ⟨revision, message.withInput input.length, input⟩ depth _ _ _ _

end Machine

/-! ## Executions at two depths -/

/-- The same message, some levels higher up. -/
structure CallMessage.Lowered (levels : ℕ) (message message' : CallMessage) : Prop where
  depth : message.depth.toNat = message'.depth.toNat + levels
  same : ∃ depth, message' = message.withDepth depth

/-- So are the calls of two such messages. -/
lemma CallMessage.Lowered.nested {levels : ℕ} {message message' : CallMessage}
    (lowered : Lowered levels message message') (room : message.depth.toNat + 1 < UInt32.size)
    (nested : CallMessage) (depth : UInt32) :
    Lowered levels (nested.withDepth (deeper message.depth))
      ((nested.withDepth depth).withDepth (deeper message'.depth)) where
  depth := by
    have level := lowered.depth
    change (deeper message.depth).toNat = (deeper message'.depth).toNat + levels
    rw [deeper_of_room room, deeper_of_room (by omega), level]
    omega
  same := ⟨_, rfl⟩

/-- Executions of the machine, the second one some levels higher up. -/
def Tandem.lowered (levels : ℕ) : Tandem Machine.engine Observer.silent Observer.silent where
  near := CallMessage.Lowered levels
  sends := SameCall
  noted _ _ := True
  lost _ := False
  ahead := 0
  sameCode := by
    rintro message _ ⟨-, depth, rfl⟩
    exact ⟨rfl, rfl⟩
  starts := by
    rintro _ revision code message _ input handed handed' ⟨-, depth, rfl⟩ packs packs'
    exact Machine.start_parallel packs packs' revision code
  reaches := by
    rintro message message' sent sent' near room ⟨depth, read⟩
    rw [Reaches, read]
    cases CallMessage.unpack sent with
    | error fault => exact .inl ⟨fault, rfl, rfl⟩
    | ok read => exact .inr ⟨read.1, _, read.2, rfl, rfl, near.nested room read.1 depth⟩
  shown _ _ _ := trivial
  staysLost _ _ := id
  overdue := .inl rfl

/-! ## Other limits -/

/-- The host with another limit of depth. -/
def Host.withLimit (host : Host) (limit : UInt32) : Host :=
  { host with settings := { host.settings with maxCallDepth := limit } }

/-- What can be seen of a moment: the event, and the number of calls that are running. -/
def Moment.seen (moment : Moment) : Event × ℕ := (moment.event, moment.host.stack.size)

/-- The depth of the call that is about to be made, if its message can be read. -/
def Moment.callDepth? (moment : Moment) : Option UInt32 :=
  match moment.event with
  | .calling sent =>
    match CallMessage.unpack sent with
    | .ok (message, _) => some (moment.host.depthFor message)
    | .error _ => none
  | _ => none

/-- The call that is about to be made would lie too deep. -/
def Moment.RejectsCall (moment : Moment) : Prop :=
  ∃ depth ∈ moment.callDepth?, moment.host.settings.maxCallDepth ≤ depth

instance : DecidablePred Moment.RejectsCall := fun moment =>
  inferInstanceAs (Decidable (∃ depth ∈ moment.callDepth?, _ ≤ depth))

variable {σ : Type}

/-- Runs of the same messages, the second with some more levels.  They are the same, with all that
can be seen of them, until the first rejects a call. -/
def Tandem.raised (engine : Engine σ) (ahead : ℕ) :
    Tandem engine Observer.recorder Observer.recorder :=
  ofSame engine _ _ (fun notes notes' => notes.map Moment.seen = notes'.map Moment.seen)
    (fun event same resembles => by
      simp only [Observer.recorder, List.map_append, same, List.map_singleton, Moment.seen,
        resembles.size])
    (fun notes => ∃ moment ∈ notes, moment.RejectsCall)
    (fun host event lost => by
      obtain ⟨moment, member, rejects⟩ := lost
      exact ⟨moment, List.mem_append_left _ member, rejects⟩)
    ahead
    (.inr fun notes host sent message input readable deep => by
      have called : Moment.callDepth? ⟨host, .calling sent⟩ = some (host.depthFor message) := by
        simp only [Moment.callDepth?, readable]
      exact ⟨⟨host, .calling sent⟩, List.mem_append_right _ (List.mem_singleton_self _),
        host.depthFor message, called, deep⟩)

/-- An execution that rejects no call for its depth does the same under a higher limit. -/
lemma execute_raised (engine : Engine σ) (state : σ) (host : Host) (message : CallMessage)
    (input : Bytes) {limit : UInt32} (higher : host.settings.maxCallDepth ≤ limit)
    (shallow : message.depth < host.settings.maxCallDepth) :
    let run := execute engine Observer.recorder state ⟨host, []⟩ message input
    let run' := execute engine Observer.recorder state ⟨host.withLimit limit, []⟩ message input
    (∀ moment ∈ run.2.2.notes, ¬ moment.RejectsCall) →
      run.1 = run'.1 ∧ run.2.1 = run'.2.1 ∧ run.2.2.host.store = run'.2.2.host.store ∧
        run.2.2.notes.map Moment.seen = run'.2.2.notes.map Moment.seen := by
  intro run run' admits
  have left : (host.withLimit limit).levelsFrom message.depth
      = host.levelsFrom message.depth + (limit.toNat - host.settings.maxCallDepth.toNat) := by
    have above := UInt32.le_iff_toNat_le.1 higher
    have below := UInt32.lt_iff_toNat_lt.1 shallow
    change limit.toNat - message.depth.toNat = host.settings.maxCallDepth.toNat - _ + _
    omega
  rcases execute_tandem (Tandem.raised engine _) state ⟨host, []⟩ ⟨host.withLimit limit, []⟩
    ⟨rfl, rfl⟩ rfl rfl input left (.inr shallow)
    with ⟨moment, member, rejects⟩ | ⟨same, states, alike, noted⟩
  · exact absurd rejects (admits moment member)
  · exact ⟨same, states, alike.store, noted⟩

/-- An execution of the machine depends on its depth and the limit only by their distance. -/
lemma execute_lowered (host : Host) (message : CallMessage) (input : Bytes)
    (shallow : message.depth ≤ host.settings.maxCallDepth) :
    let run := execute Machine.engine Observer.silent () ⟨host, ()⟩ message input
    let run' := execute Machine.engine Observer.silent ()
      ⟨host.withLimit (host.settings.maxCallDepth - message.depth), ()⟩ (message.withDepth 0) input
    run.1 = run'.1 ∧ run.2.2.host.store = run'.2.2.host.store := by
  intro run run'
  have left : (host.withLimit (host.settings.maxCallDepth - message.depth)).levelsFrom 0
      = host.levelsFrom message.depth := UInt32.toNat_sub_of_le _ _ shallow
  have near : CallMessage.Lowered message.depth.toNat message (message.withDepth 0) :=
    ⟨(Nat.zero_add _).symm, 0, rfl⟩
  rcases execute_tandem (Tandem.lowered message.depth.toNat) () ⟨host, ()⟩
    ⟨host.withLimit (host.settings.maxCallDepth - message.depth), ()⟩ ⟨rfl, trivial⟩ near rfl input
    left (.inl rfl) with lost | ⟨same, -, alike, -⟩
  · exact lost.elim
  · exact ⟨same, alike.store⟩

/-- **The limit of depth only rejects calls.**  An execution in which neither the root nor any other
call was rejected comes to the same under every higher limit, with the same engines started and the
same questions, answers and calls on the way.  An execution of the machine comes to the same when
the depth of its root is taken off both the depth and the limit. -/
theorem execute_limit (engine : Engine σ) (state : σ) (host : Host) (message : CallMessage)
    (input : Bytes) :
    (∀ limit, host.settings.maxCallDepth ≤ limit → message.depth < host.settings.maxCallDepth →
      let run := execute engine Observer.recorder state ⟨host, []⟩ message input
      let run' := execute engine Observer.recorder state ⟨host.withLimit limit, []⟩ message input
      (∀ moment ∈ run.2.2.notes, ¬ moment.RejectsCall) →
        run.1 = run'.1 ∧ run.2.1 = run'.2.1 ∧ run.2.2.host.store = run'.2.2.host.store ∧
          run.2.2.notes.map Moment.seen = run'.2.2.notes.map Moment.seen) ∧
    (message.depth ≤ host.settings.maxCallDepth →
      let run := execute Machine.engine Observer.silent () ⟨host, ()⟩ message input
      let run' := execute Machine.engine Observer.silent ()
        ⟨host.withLimit (host.settings.maxCallDepth - message.depth), ()⟩ (message.withDepth 0)
        input
      run.1 = run'.1 ∧ run.2.2.host.store = run'.2.2.host.store) :=
  ⟨fun _ higher shallow => execute_raised engine state host message input higher shallow,
    execute_lowered host message input⟩

/-- A store with one account, whose code calls a stranger. -/
def messenger : Store :=
  Store.empty.deploy Address.zero
    [0x60, 0, 0x60, 0, 0x60, 0, 0x60, 0, 0x60, 0, 0x60, 1, 0x60, 100, 0xf1]

/-- An account at depth one calls another, where three levels are allowed, seven, or two with the
root at the top. -/
theorem messenger_under_limits :
    let host : Host := { store := messenger, settings := { maxCallDepth := 3 } }
    let message := (CallMessage.plain Address.zero Address.zero 100).withDepth 1
    let run := execute Machine.engine Observer.recorder () ⟨host, []⟩ message []
    let higher := execute Machine.engine Observer.recorder () ⟨host.withLimit 7, []⟩ message []
    let silent := execute Machine.engine Observer.silent () ⟨host, ()⟩ message []
    let lowered := execute Machine.engine Observer.silent () ⟨host.withLimit 2, ()⟩
      (message.withDepth 0) []
    (host.settings.maxCallDepth ≤ 7 ∧ message.depth < host.settings.maxCallDepth ∧
      message.depth ≤ host.settings.maxCallDepth) ∧
    run.2.2.notes.length = 6 ∧ (∀ moment ∈ run.2.2.notes, ¬ moment.RejectsCall) ∧
    (run.1 = higher.1 ∧ run.2.1 = higher.2.1 ∧
      run.2.2.host.store = higher.2.2.host.store ∧
      run.2.2.notes.map Moment.seen = higher.2.2.notes.map Moment.seen) ∧
    silent.1 = lowered.1 ∧ silent.2.2.host.store = lowered.2.2.host.store := by
  intro host message
  have admits : ∀ moment ∈ (execute Machine.engine Observer.recorder () ⟨host, []⟩ message
      []).2.2.notes, ¬ moment.RejectsCall := by
    decide +kernel
  obtain ⟨raised, distance⟩ := execute_limit Machine.engine () host message []
  have left : host.settings.maxCallDepth - message.depth = 2 := by decide
  rw [left] at distance
  exact ⟨by decide, by decide +kernel, admits, raised 7 (by decide) (by decide) admits,
    distance (by decide)⟩

end ContractHost
