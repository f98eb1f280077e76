import ContractHost.Proofs.Depth
import ContractHost.Proofs.NestedCall

/-!
# What a callee is handed

A call is sent as a buffer whose header may say that the input lies anywhere in it: behind the
header, in the header itself, or nowhere at all if it is empty.  The host reads message and input,
puts the message at its own depth, and packs both anew.  So what the callee is handed does not
depend on how the buffer was laid out, and a buffer that was packed already comes through as it is
but for four bytes.

* `runMessage_eq` — what it means to run a message in a frame, without any bound on levels: the
  engine is started once, and its nested calls are served as `serveCall` serves them.
* `HandedOver` — what is handed over for a call, in terms of what was sent.
* **`runPacked_handover`** — every call that can be read and has a level left.
-/

namespace ContractHost

variable {σ τ : Type}

/-! ## One run of an engine -/

/-- Programs do not tell two ways of serving calls apart that agree while their frame is on top. -/
lemma Program.run_congr (watch : Observer τ) {settings : Settings} {depth : UInt32}
    {call other : σ → World τ → Bytes → Reply × σ × World τ}
    (agree : ∀ state world sent, world.host.RunsAt settings depth →
      call state world sent = other state world sent)
    (stays : ∀ state world sent, world.host.RunsAt settings depth →
      (other state world sent).2.2.host.RunsAt settings depth)
    (program : Program σ) (world : World τ) (running : world.host.RunsAt settings depth) :
    program.run ⟨World.ask watch, call⟩ world = program.run ⟨World.ask watch, other⟩ world := by
  induction program generalizing world with
  | finish state reply => rfl
  | crash state reason => rfl
  | ask query next ih =>
      have asked : Session world.host _ (world.host.answer query).2 := .asked query (.idle _)
      exact ih _ _ (asked.runsAt running)
  | call state sent next ih =>
      simp only [run, agree state world sent running]
      exact ih _ _ _ (stays state world sent running)

/-- A nested call leaves the frame on top that made it. -/
lemma serveCall_runsAt (engine : Engine σ) (watch : Observer τ) (state : σ) (world : World τ)
    (sent : Bytes) {settings : Settings} {depth : UInt32}
    (running : world.host.RunsAt settings depth) :
    (serveCall engine watch state world sent).2.2.host.RunsAt settings depth := by
  obtain ⟨moments, served, -⟩ := serveCall_served engine watch state world.host world.notes sent
  exact served.session.runsAt running

/-- With the levels that the frame on top leaves, nested calls are served as always. -/
lemma serveCallWith_levels (engine : Engine σ) (watch : Observer τ) {levels : ℕ} (state : σ)
    (world : World τ) (sent : Bytes) {settings : Settings} {depth : UInt32}
    (running : world.host.RunsAt settings depth)
    (left : world.host.levelsFrom depth = levels + 1) :
    serveCallWith watch (runInFrame engine watch levels) state world sent
      = serveCall engine watch state world sent := by
  have same (message : CallMessage) :
      world.host.levelsFrom (world.host.depthFor message) = levels := by
    rw [running.depthFor, Host.levelsFrom_deeper left]
  simp only [serveCall, serveCallWith, runPackedWith, World.note]
  cases CallMessage.unpack sent with
  | error fault => rfl
  | ok read => simp only [runMessage, CallMessage.withDepth, same]

/-- A call is run and then settled in the frame that made it. -/
lemma serveCall_eq (engine : Engine σ) (watch : Observer τ) (state : σ) (world : World τ)
    (sent : Bytes) :
    serveCall engine watch state world sent
      = let (outcome, state, world) :=
          runPacked engine watch state (world.note watch (.calling sent)) sent
        ((world.host.settle outcome).1, state,
          World.note watch ⟨(world.host.settle outcome).2, world.notes⟩
            (.replied (world.host.settle outcome).1)) := rfl

/-- Without levels left, a message is rejected. -/
lemma runMessage_rejected (engine : Engine σ) (watch : Observer τ) (state : σ) (world : World τ)
    {message : CallMessage} (input : Bytes)
    (exhausted : world.host.levelsFrom message.depth = 0) :
    runMessage engine watch state world message input
      = (.ok (.rejected (.depthExceeded message.depth world.host.settings.maxCallDepth)), state,
        world) := by
  rw [runMessage, exhausted]
  rfl

/-- A message that cannot be packed is not run. -/
lemma runMessage_unpackable (engine : Engine σ) (watch : Observer τ) (state : σ) (world : World τ)
    {message : CallMessage} {input : Bytes} {fault : Fault}
    (shallow : message.depth < world.host.settings.maxCallDepth)
    (packs : message.pack input = .error fault) :
    runMessage engine watch state world message input = (.error fault, state, world) := by
  obtain ⟨levels, left⟩ := Host.exists_levels shallow
  rw [runMessage, left]
  simp only [runInFrame, packs]

/-- The run of an engine on what it is handed: the frame of the message is pushed, the engine runs
with it on top, and the frame is taken off. -/
def runHanded (engine : Engine σ) (watch : Observer τ) (state : σ) (world : World τ)
    (message : CallMessage) (handed code : Bytes) : Except Fault Outcome × σ × World τ :=
  let revision := world.host.settings.revision
  let entered :=
    { world with host := world.host.enter message }.note watch (.started revision handed code)
  let (ending, state, world') :=
    (engine.start state revision handed code).run ⟨World.ask watch, serveCall engine watch⟩ entered
  let world' := world'.note watch (.ended ending)
  let (diff, host) := world'.host.leave world.host.stack.size
  (Outcome.ofEnding ending diff, state, { world' with host })

lemma runHanded_eq (engine : Engine σ) (watch : Observer τ) (state : σ) (world : World τ)
    (message : CallMessage) (handed code : Bytes) :
    runHanded engine watch state world message handed code
      = let (ending, state, inner) :=
          (engine.start state world.host.settings.revision handed code).run
            ⟨World.ask watch, serveCall engine watch⟩
            (World.note watch ⟨world.host.enter message, world.notes⟩
              (.started world.host.settings.revision handed code))
        (Outcome.ofEnding ending (inner.host.leave world.host.stack.size).1, state,
          ⟨(inner.host.leave world.host.stack.size).2,
            watch inner.notes inner.host (.ended ending)⟩) := rfl

/-- **A message that fits below the limit is run by one start of the engine,** on the packed message
and the code that the host has for it. -/
theorem runMessage_eq (engine : Engine σ) (watch : Observer τ) (state : σ) (world : World τ)
    {message : CallMessage} {input handed : Bytes}
    (shallow : message.depth < world.host.settings.maxCallDepth)
    (packs : message.pack input = .ok handed) :
    runMessage engine watch state world message input
      = runHanded engine watch state world message handed (world.host.codeFor message input) := by
  obtain ⟨levels, left⟩ := Host.exists_levels shallow
  have served (state : σ) (inner : World τ) (sent : Bytes)
      (running : inner.host.RunsAt world.host.settings message.depth) :
      serveCallWith watch (runInFrame engine watch levels) state inner sent
        = serveCall engine watch state inner sent :=
    serveCallWith_levels engine watch state inner sent running
      ((running.levelsFrom_eq _).trans left)
  have ran := Program.run_congr watch served
    (fun state inner sent => serveCall_runsAt engine watch state inner sent)
    (engine.start state world.host.settings.revision handed (world.host.codeFor message input))
    (World.note watch ⟨world.host.enter message, world.notes⟩
      (.started world.host.settings.revision handed (world.host.codeFor message input)))
    (world.host.runsAt_enter message)
  rw [runMessage, left]
  simp only [runInFrame, packs, ran, runHanded]

/-- The engines that start during a session lie above its frame. -/
lemma Session.starts_above {host last : Host} {moments : List Moment}
    (session : Session host moments last) {frame : Frame} {below : List Frame}
    (live : host.stack.frames = frame :: below) :
    ∀ moment ∈ moments, ∀ revision handed code, moment.event = .started revision handed code →
      host.stack.size < moment.host.stack.size := by
  induction session generalizing frame below with
  | idle host => simp
  | asked query _ ih =>
      obtain ⟨lent, answered⟩ := Host.answer_frames live query
      have rest := ih answered
      rw [CallStack.size, answered] at rest
      rw [CallStack.size, live]
      simpa using rest
  | refused refusal _ ih =>
      have rest := ih (Host.settle_frames live _)
      rw [CallStack.size, refusal.settle_stack, ← CallStack.size] at rest
      simpa using rest
  | @called host inner _ _ _ _ _ _ message ending _ run _ ihRun ihRest =>
      have entered := Host.enter_frames live message
      obtain ⟨child, ended, -⟩ := run.top entered
      have during := ihRun entered
      have rest := ihRest (Host.conclude_frames live ended ending)
      have lower : host.stack.size < (host.enter message).stack.size := Nat.lt_succ_self _
      have same : (inner.conclude host.stack.size ending).2.stack.size = host.stack.size := by
        rw [CallStack.size, Host.conclude_frames live ended ending, CallStack.size, live]
        rfl
      rw [same] at rest
      simp only [List.forall_mem_cons, List.forall_mem_append, reduceCtorEq, IsEmpty.forall_iff,
        implies_true, true_and]
      refine ⟨fun _ _ _ _ => lower, fun moment member revision handed code started => ?_, rest⟩
      exact lower.trans (during moment member revision handed code started)

/-! ## What is packed anew -/

namespace CallMessage

lemma length_of_pack {message : CallMessage} {input packed : Bytes}
    (packs : message.pack input = .ok packed) : packed.length = size + input.length := by
  unfold pack at packs
  split_ifs at packs
  obtain rfl := Except.ok.inj packs
  rw [List.length_append, FixedBytes.length_toList]

/-- The depth of a message has its place in the header, and the rest does not depend on it. -/
lemma encode_around_depth (message : CallMessage) (rest : Bytes) :
    ∃ front back : Bytes, front.length = 8 ∧ ∀ depth,
      (message.withDepth depth).encode.toList ++ rest
        = front ++ (Field.uint32.encode depth).toList ++ back := by
  refine ⟨(Field.int32.encode message.kind.number).toList
    ++ (Field.uint32.encode message.flags).toList,
    List.replicate 4 0 ++ (message.closing ++ rest), by simp [Field.width], fun depth => ?_⟩
  simp only [encode_toList, header, opening, closing, withDepth, List.append_assoc]

/-- A packed message that is packed anew at another depth differs in the depth only. -/
lemma pack_withDepth {original : CallMessage} {input packed handed : Bytes} {depth : UInt32}
    (packs : original.pack input = .ok packed)
    (repacks : ((original.withInput input.length).withDepth depth).pack input = .ok handed) :
    handed = packed.take 8 ++ (Field.uint32.encode depth).toList ++ packed.drop 12 := by
  unfold pack at packs repacks
  split_ifs at packs repacks
  obtain rfl := Except.ok.inj packs
  obtain rfl := Except.ok.inj repacks
  obtain ⟨front, back, eight, around⟩ :=
    encode_around_depth (original.withInput input.length) input
  have twelve : (front ++ (Field.uint32.encode original.depth).toList).length = 12 := by
    rw [List.length_append, eight, FixedBytes.length_toList]
    rfl
  have packed : (original.withInput input.length).encode.toList ++ input
      = front ++ (Field.uint32.encode original.depth).toList ++ back := around original.depth
  have repacked : (((original.withInput input.length).withDepth depth).withInput
      input.length).encode.toList ++ input
      = front ++ (Field.uint32.encode depth).toList ++ back := around depth
  have before_depth : (((original.withInput input.length).encode.toList ++ input).take 8)
      = front := by
    rw [packed, List.append_assoc, List.take_left' eight]
  have after_depth : (((original.withInput input.length).encode.toList ++ input).drop 12)
      = back := by
    rw [packed, List.drop_left' twelve]
  rw [repacked, before_depth, after_depth]

end CallMessage

/-! ## Handing over -/

/-- What the callee gets for a call that was sent as some bytes and read as a message with its
input: what it is handed, and the code that it runs. -/
structure HandedOver (host : Host) (frame : Frame) (sent : Bytes) (message : CallMessage)
    (input handed code : Bytes) : Prop where
  /-- A header and the input, and nothing else. -/
  length : handed.length = 140 + input.length
  /-- It is read as the same input and as the same message, at its own depth and with the place
  where the input lies now. -/
  received : ∃ depth inputSize,
    CallMessage.unpack handed
      = .ok ({ message with depth, inputOffset := 140, inputSize }, input) ∧
    depth.toNat = frame.depth.toNat + 1 ∧ inputSize.toNat = input.length
  created : message.kind = .create ∨ message.kind = .create2 → code = input
  called : message.kind ≠ .create → message.kind ≠ .create2 →
    code = host.store.code message.destination
  /-- Of a buffer that was packed already only the depth changes. -/
  canonical : ∀ original payload, CallMessage.pack original payload = .ok sent →
    ∃ depth, depth.toNat = frame.depth.toNat + 1 ∧
      handed = sent.take 8 ++ (Field.uint32.encode depth).toList ++ sent.drop 12

section Handover

variable {host : Host} {frame : Frame} {below : List Frame} {sent input handed : Bytes}
  {message : CallMessage}

/-- The message at the depth of its callee, packed with its input, is what is handed over. -/
lemma HandedOver.of_pack (level : (deeper frame.depth).toNat = frame.depth.toNat + 1)
    (readable : CallMessage.unpack sent = .ok (message, input))
    (packs : (message.withDepth (deeper frame.depth)).pack input = .ok handed) :
    HandedOver host frame sent message input handed (host.codeFor message input) where
  length := CallMessage.length_of_pack packs
  received := by
    have fits := CallMessage.length_of_unpack readable
    have place : UInt64.ofNat CallMessage.size = 140 := rfl
    have read := CallMessage.unpack_packed packs
    simp only [CallMessage.withInput, CallMessage.withDepth, place] at read
    exact ⟨_, _, read, level, UInt32.toNat_ofNat_of_lt fits⟩
  created := by
    rintro (kind | kind) <;> simp only [Host.codeFor, kind, CallKind.isCreate, if_true]
  called := by
    intro plain salted
    cases kind : message.kind with
    | create => exact absurd kind plain
    | create2 => exact absurd kind salted
    | call | delegateCall | callCode =>
        simp only [Host.codeFor, kind, CallKind.isCreate, Bool.false_eq_true, if_false]
  canonical := by
    intro original payload packed
    have read := CallMessage.unpack_packed packed
    rw [readable] at read
    cases read
    exact ⟨_, level, CallMessage.pack_withDepth packed packs⟩

/-- **The callee receives exactly what its caller referred to, in one form.**  Let a call be sent
from a frame below whose depth there is a level left, as any bytes that can be read.  Then the
engine is started once for it, under the revision of the settings, and is handed message, input and
code as `HandedOver` says; every other engine that starts meanwhile serves a call of this one. -/
theorem runPacked_handover (engine : Engine σ) (watch : Observer τ) (state : σ) (notes : τ)
    (live : host.stack.frames = frame :: below)
    (room : frame.depth.toNat + 1 < host.settings.maxCallDepth.toNat)
    (readable : CallMessage.unpack sent = .ok (message, input)) :
    ∃ handed code, HandedOver host frame sent message input handed code ∧
      runPacked engine watch state ⟨host, notes⟩ sent
        = runHanded engine watch state ⟨host, notes⟩ (message.withDepth (deeper frame.depth))
            handed code ∧
      ∃ entered inner during ending,
        (runPacked engine Observer.recorder state ⟨host, []⟩ sent).2.2.notes
          = ⟨entered, .started host.settings.revision handed code⟩ ::
            (during ++ [⟨inner, .ended ending⟩]) ∧
        entered.stack.size = host.stack.size + 1 ∧
        ∀ moment ∈ during, ∀ revision handed code,
          moment.event = .started revision handed code →
          entered.stack.size < moment.host.stack.size := by
  have shallow : frame.depth < host.settings.maxCallDepth := by
    rw [UInt32.lt_iff_toNat_lt]
    omega
  have level := (deeper_toNat shallow).2
  have depth : host.depthFor message = deeper frame.depth := by
    simp only [Host.depthFor, CallStack.current?_of_live live]
  have below_limit :
      (message.withDepth (deeper frame.depth)).depth < host.settings.maxCallDepth := by
    rw [UInt32.lt_iff_toNat_lt]
    exact level ▸ room
  obtain ⟨handed, packs⟩ :=
    CallMessage.pack_of_unpack readable (message.withDepth (deeper frame.depth))
  refine ⟨handed, host.codeFor message input, .of_pack level readable packs, ?_, ?_⟩
  · simp only [runPacked, runPackedWith, readable, depth]
    exact runMessage_eq engine watch state ⟨host, notes⟩ below_limit packs
  · obtain ⟨moments, visit, noted⟩ := runMessage_visits engine Observer.recorder host
      (message.withDepth (deeper frame.depth)) state [] input
    rw [Observer.recorder_notesOn, List.nil_append] at noted
    simp only [runPacked, runPackedWith, readable, depth, noted]
    generalize (runMessage engine Observer.recorder state _ _ input).1 = outcome at visit
    generalize (runMessage engine Observer.recorder state _ _ input).2.2.host = last at visit
    cases visit with
    | tooDeep deep => exact absurd below_limit (UInt32.not_lt.2 deep)
    | tooLong _ unpackable => simp [packs] at unpackable
    | @ran inner during _ ending _ packs' run =>
        rw [packs] at packs'
        cases packs'
        have above := run.starts_above (Host.enter_frames rfl _)
        exact ⟨_, inner, during, ending, rfl, rfl, above⟩

/-- A creation whose code lies in its own header, with bytes behind the header that it does not
refer to. -/
def scatteredCreation : CallMessage :=
  { selfCall with kind := .create2, destination := stranger, inputOffset := 24, inputSize := 20 }

/-- The destination of such a creation is what its engine is handed and runs. -/
theorem scatteredCreation_handed_over :
    ∃ handed code, handed.length = 160 ∧ code = stranger.toList ∧
      runPacked (Engine.bequeathing Address.zero stranger (Result.success 0).encode) Observer.silent
          () ⟨Host.rooted, ()⟩ (scatteredCreation.encode.toList ++ [1, 2, 3])
        = runHanded (Engine.bequeathing Address.zero stranger (Result.success 0).encode)
          Observer.silent () ⟨Host.rooted, ()⟩ (scatteredCreation.withDepth 1) handed code := by
  have live : Host.rooted.stack.frames = [{ message := selfCall }] := rfl
  have readable : CallMessage.unpack (scatteredCreation.encode.toList ++ [1, 2, 3])
      = .ok (scatteredCreation, stranger.toList) := by decide +kernel
  obtain ⟨handed, code, received, run, -⟩ := runPacked_handover
    (Engine.bequeathing Address.zero stranger (Result.success 0).encode) Observer.silent () ()
    live (by decide) readable
  refine ⟨handed, code, ?_, received.created (.inr rfl), run⟩
  rw [received.length, FixedBytes.length_toList]

end Handover

end ContractHost
