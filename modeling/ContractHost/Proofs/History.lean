import ContractHost.Proofs.Heirs
import ContractHost.Proofs.Run

/-!
# What is left between requests

A host outlives many executions.  While no call is running, a client may let it execute or run a
message, put a question to it or let it serve a call; each of these is a `Request`.  Whatever the
engines did and however a request ended, afterwards there are no frames again, and all that the
request has changed is the store, which got accounts for heirs (`Completed`).

* `heirs` — the accounts that were named as heirs while some moments passed.
* **`performAll_store`** — after any requests the store has the accounts it had, as they were, and
  empty ones for the heirs.
* **`execute_after_requests`** — the next execution is the one that a new host would perform.
-/

namespace ContractHost

variable {σ τ : Type}

/-! ## Heirs, one moment after the other -/

/-- The heirs that were named while some moments passed, from a host on: the beneficiary of every
destruction whose account was not yet destroyed when the host was asked for it. -/
def heirs : Host → List Moment → List Address
  | _, [] => []
  | host, ⟨next, .answered query _⟩ :: moments => (host.heir? query).toList ++ heirs next moments
  | _, ⟨next, _⟩ :: moments => heirs next moments

/-- When a frame has ended, the questions are put to another host. -/
lemma heirs_append_ended (host : Host) (before after : List Moment) (inner : Host)
    (ending : Ending) :
    heirs host (before ++ ⟨inner, .ended ending⟩ :: after)
      = heirs host before ++ heirs inner after := by
  induction before generalizing host with
  | nil => rfl
  | cons first before ih =>
      obtain ⟨next, event⟩ := first
      cases event with
      | answered query answer => simp only [List.cons_append, heirs, ih, List.append_assoc]
      | started | ended | calling | replied => simp only [List.cons_append, heirs, ih]

/-- Only the frames of the first host matter. -/
lemma heirs_congr {host other : Host} (same : host.stack = other.stack) (moments : List Moment) :
    heirs host moments = heirs other moments := by
  have asked (query : Query) : host.heir? query = other.heir? query := by
    cases query <;> simp only [Host.heir?, same]
  cases moments with
  | nil => rfl
  | cons moment moments =>
      obtain ⟨next, event⟩ := moment
      cases event with
      | answered query answer => simp only [heirs, asked]
      | started | ended | calling | replied => rfl

/-- During a session the heirs are those that its answers tell of. -/
lemma Session.mem_heirs {host last : Host} {moments : List Moment}
    (session : Session host moments last) {frame : Frame} {below : List Frame}
    (live : host.stack.frames = frame :: below) (address : Address) :
    address ∈ heirs host moments ↔ Bequeathed moments address := by
  induction session generalizing frame below with
  | idle host => simp [heirs]
  | asked query _ ih =>
      obtain ⟨lent, answered⟩ := Host.answer_frames live query
      rw [heirs, List.mem_append, Option.mem_toList, ih answered, ← Host.heir?_of_live live,
        bequeathed_cons]
  | refused _ _ ih =>
      simp only [heirs, ih (Host.settle_frames live _), bequeathed_cons, Event.heir?, reduceCtorEq,
        false_or]
  | @called _ _ _ _ _ _ _ _ message ending _ run _ ihRun ihRest =>
      have entered := Host.enter_frames live message
      obtain ⟨child, ended, -⟩ := run.top entered
      simp only [heirs, heirs_append_ended, List.mem_append, ihRun entered,
        ihRest (Host.conclude_frames live ended ending), bequeathed_cons, bequeathed_append,
        Event.heir?, reduceCtorEq, false_or]

/-! ## Requests -/

/-- What a client asks of a host while no call is running. -/
inductive Request where
  | execution (message : CallMessage) (input : Bytes)
  /-- The run of a packed message that is no execution. -/
  | run (packed : Bytes)
  | question (query : Query)
  | call (packed : Bytes)

/-- The states of engine and host after a request, and the moments meanwhile. -/
def Request.perform (engine : Engine σ) (state : σ) (host : Host) :
    Request → σ × World (List Moment)
  | execution message input => (execute engine Observer.recorder state ⟨host, []⟩ message input).2
  | run packed => (runPacked engine Observer.recorder state ⟨host, []⟩ packed).2
  | question query => (state, (World.ask Observer.recorder ⟨host, []⟩ query).2)
  | call packed => (serveCall engine Observer.recorder state ⟨host, []⟩ packed).2

/-- The states of engine and host after some requests. -/
def performAll (engine : Engine σ) (state : σ) (host : Host) : List Request → σ × Host
  | [] => (state, host)
  | request :: requests =>
    let (state, world) := request.perform engine state host
    performAll engine state world.host requests

/-- The heirs that were named during some requests. -/
def heirsOf (engine : Engine σ) (state : σ) (host : Host) : List Request → List Address
  | [] => []
  | request :: requests =>
    let (state, world) := request.perform engine state host
    heirs host world.notes ++ heirsOf engine state world.host requests

/-! ## What a request leaves -/

/-- What is left of a host when requests are over that named some heirs: no frame, the same
settings, and a store that got empty accounts for exactly these heirs. -/
structure Completed (host : Host) (named : List Address) (last : Host) : Prop where
  idle : last.stack.frames = []
  setting : last.SameSetting host
  grown : last.store.Extends host.store
  accounts : ∀ address,
    last.store.contains address = true ↔ host.store.contains address = true ∨ address ∈ named

section Completed

variable {host middle last : Host}

lemma Completed.refl (idle : host.stack.frames = []) : Completed host [] host :=
  ⟨idle, Host.SameSetting.refl host, Store.Extends.refl _, by simp⟩

lemma Completed.trans {early late : List Address} (first : Completed host early middle)
    (second : Completed middle late last) : Completed host (early ++ late) last where
  idle := second.idle
  setting := second.setting.trans first.setting
  grown := second.grown.trans first.grown
  accounts address := by
    rw [second.accounts, first.accounts, List.mem_append, or_assoc]

/-- A session of a frame that was pushed without any below it. -/
lemma Session.completed {message : CallMessage} {during : List Moment}
    (idle : host.stack.frames = []) (run : Session (host.enter message) during last) :
    Completed host (heirs (host.enter message) during)
      (last.leave host.stack.size).2 := by
  have entered := Host.enter_frames idle message
  obtain ⟨child, ended, -⟩ := run.top entered
  rw [Host.leave_top idle ended]
  have setting := run.sameSetting
  refine ⟨rfl, ⟨setting.txContext, setting.settings, setting.blockHashes⟩, run.store_extends,
    fun address => ?_⟩
  rw [run.mem_heirs entered]
  exact run.contains_iff entered address

lemma Visit.completed {message : CallMessage} {input : Bytes} {outcome : Except Fault Outcome}
    {moments : List Moment} (visit : Visit host message input outcome moments last)
    (idle : host.stack.frames = []) : Completed host (heirs host moments) last := by
  cases visit with
  | tooDeep _ => exact .refl idle
  | tooLong _ _ => exact .refl idle
  | ran ending shallow packs run =>
      have left := run.completed idle
      simpa only [heirs, heirs_append_ended, List.append_nil] using left

/-- Without a frame there is nothing to change. -/
lemma Host.modifyCurrent_of_idle (idle : host.stack.frames = []) (change : Frame → Frame) :
    host.modifyCurrent change = host := by
  simp only [modifyCurrent, CallStack.modifyCurrent, idle]

lemma Completed.settle {named : List Address} (left : Completed host named last)
    (outcome : Except Fault Outcome) : Completed host named (last.settle outcome).2 := by
  refine ⟨?_, (Host.settle_sameSetting _ _).trans left.setting, ?_, ?_⟩
  · cases outcome with
    | error fault => exact left.idle
    | ok outcome =>
        simp only [Host.settle, Host.modifyDiff, Host.modifyCurrent_of_idle left.idle, ite_self]
        exact left.idle
  · rw [Host.settle_store]
    exact left.grown
  · rw [Host.settle_store]
    exact left.accounts

lemma Served.completed {sent : Bytes} {reply : Reply} {moments : List Moment}
    (served : Served host sent reply moments last) (idle : host.stack.frames = []) :
    Completed host (heirs host moments) last := by
  cases served with
  | refused refusal => exact (Completed.refl idle).settle _
  | @called inner _ _ _ _ ending admission run =>
      rw [Host.conclude]
      simpa only [heirs, heirs_append_ended, List.append_nil] using
        (run.completed idle).settle (Outcome.ofEnding ending (inner.leave host.stack.size).1)

lemma Host.answer_completed (idle : host.stack.frames = []) (query : Query) :
    Completed host (host.heir? query).toList (host.answer query).2 where
  idle := by
    have unchanged := modifyCurrent_of_idle idle
    have current := CallStack.current?_of_idle idle
    cases query with
    | destroy subject heir =>
        have frames : (host.withHeir subject heir).stack.frames = [] := by
          rwa [withHeir_stack]
        rwa [answer, destroy_host, modifyDiff, modifyCurrent_of_idle frames]
    | setSlot address key value => simpa only [answer, setSlot, current] using idle
    | balance address =>
        simp only [answer, balance, current]
        split <;> simpa only [lend, unchanged] using idle
    | log address data topics =>
        simp only [answer, log]
        split <;> simpa only [modifyDiff, unchanged, keepFault] using idle
    | accountExists | accessAccount | accessSlot | slot | codeSize | codeHash | code | txContext
    | blockHash =>
        simpa only [answer, accessAccount, accessSlot, modifyDiff, lend, unchanged] using idle
  setting := host.answer_sameSetting query
  grown := host.answer_extends query
  accounts address := by
    rw [host.answer_contains, Option.mem_toList]

end Completed

/-- **A request leaves no frame behind,** and only its heirs are new in the store. -/
theorem Request.perform_completed (engine : Engine σ) (state : σ) {host : Host}
    (idle : host.stack.frames = []) (request : Request) :
    Completed host (heirs host (request.perform engine state host).2.notes)
      (request.perform engine state host).2.host := by
  cases request with
  | execution message input =>
      obtain ⟨outcome, last, visit, -, ended⟩ :=
        execute_visits (rfl : execute engine Observer.recorder state ⟨host, []⟩ message input = _)
      obtain ⟨frames, setting, grown, accounts⟩ := visit.completed idle
      rw [perform, ended]
      refine ⟨frames, ⟨setting.txContext, setting.settings, setting.blockHashes⟩, grown, ?_⟩
      rwa [heirs_congr (rfl : host.stack = { host with fault := none }.stack)]
  | run packed =>
      simp only [perform, runPacked, runPackedWith]
      cases readable : CallMessage.unpack packed with
      | error fault => exact .refl idle
      | ok read =>
          obtain ⟨message, input⟩ := read
          obtain ⟨moments, visit, noted⟩ := runMessage_visits engine Observer.recorder host
            (message.withDepth (host.depthFor message)) state [] input
          rw [Observer.recorder_notesOn, List.nil_append] at noted
          simp only [noted]
          exact visit.completed idle
  | question query =>
      have left := Host.answer_completed idle query
      simpa only [perform, World.ask, World.note, Observer.recorder, List.nil_append, heirs,
        List.append_nil] using left
  | call packed =>
      obtain ⟨moments, served, noted⟩ :=
        serveCall_served engine Observer.recorder state host [] packed
      rw [Observer.recorder_notesOn, List.nil_append] at noted
      simp only [perform, noted]
      exact served.completed idle

/-- **So do any number of them.** -/
theorem performAll_completed (engine : Engine σ) (requests : List Request) (state : σ)
    {host : Host} (idle : host.stack.frames = []) :
    Completed host (heirsOf engine state host requests)
      (performAll engine state host requests).2 := by
  induction requests generalizing state host with
  | nil => exact .refl idle
  | cons request requests ih =>
      have first := request.perform_completed engine state idle
      exact first.trans (ih _ first.idle)

/-! ## The store -/

/-- An account of the store is as it was, or it is one that was made for an heir. -/
lemma Completed.get?_eq {host last : Host} {named : List Address}
    (left : Completed host named last) (address : Address) :
    (last.store.get? address = host.store.get? address ∧
      (host.store.contains address = true ∨ address ∉ named)) ∨
    (last.store.get? address = some {} ∧ host.store.get? address = none ∧ address ∈ named) := by
  have known := left.accounts address
  simp only [Store.contains_eq_isSome_get?] at known ⊢
  rcases left.grown address with same | ⟨absent, empty⟩
  · refine .inl ⟨same, ?_⟩
    rw [same] at known
    by_cases member : address ∈ named
    · exact .inl (known.2 (.inr member))
    · exact .inr member
  · exact .inr ⟨empty, absent, by simpa [absent, empty] using known⟩

/-- **The store is only ever extended.**  Over any history of executions, other runs, questions and
calls, with any engine and however the runs end, every account of the store stays as it is in every
field.  The accounts that come to it are empty ones, exactly for those that had none and were named
as beneficiary of a destruction whose account was destroyed in no live frame at that moment. -/
theorem performAll_store (engine : Engine σ) (state : σ) (store : Store) (txContext : TxContext)
    (settings : Settings) (blockHashes : Std.ExtTreeMap Int64 Word) (requests : List Request) :
    let host : Host := { store, txContext, settings, blockHashes }
    let final := (performAll engine state host requests).2.store
    ∀ address,
      (final.get? address = store.get? address ∧
        (store.contains address = true ∨ address ∉ heirsOf engine state host requests)) ∨
      (final.get? address = some {} ∧ store.get? address = none ∧
        address ∈ heirsOf engine state host requests) :=
  fun address => (performAll_completed engine requests state rfl).get?_eq address

/-! ## The next execution -/

/-- **Executions do not leak into each other.**  After any history there is no frame and no byte
lent to an engine, and the next execution is that of a new host over the store as it is by then: it
has the same answer, leaves the same host, and shows the same moments to every observer.  An engine
with a state of its own has to be in the same state, of course. -/
theorem execute_after_requests (engine : Engine σ) (state : σ) (store : Store)
    (txContext : TxContext) (settings : Settings) (blockHashes : Std.ExtTreeMap Int64 Word)
    (requests : List Request) (watch : Observer τ) (notes : τ) (message : CallMessage)
    (input : Bytes) :
    let made (store : Store) : Host := { store, txContext, settings, blockHashes }
    let past := performAll engine state (made store) requests
    past.2.stack.size = 0 ∧ past.2.stack.lentBytes = 0 ∧
    execute engine watch past.1 ⟨past.2, notes⟩ message input
      = execute engine watch past.1 ⟨made past.2.store, notes⟩ message input := by
  intro made past
  have left : Completed (made store) _ past.2 := performAll_completed engine requests state rfl
  obtain ⟨idle, ⟨sameContext, sameSettings, sameHashes⟩, -, -⟩ := left
  have frames : past.2.stack = {} := congrArg CallStack.mk idle
  have cleared : { past.2 with fault := none } = made past.2.store := by
    simp only [frames, sameContext, sameSettings, sameHashes, made]
  refine ⟨?_, ?_, ?_⟩
  · rw [CallStack.size, idle, List.length_nil]
  · rw [CallStack.lentBytes, idle]
    rfl
  · simp only [execute, cleared]
    rfl

end ContractHost
