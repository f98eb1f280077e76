import ContractHost.Proofs.Conduct
import ContractHost.Proofs.Course
import ContractHost.Proofs.Handover
import Mathlib.Algebra.Ring.GeomSum

/-!
# Runs are bounded

Nothing that the machine does can make an execution run on, whatever the code.  Gas is not the
reason, for a nested call may be given any amount of it and the caller does not pay.  It is that
there are no jumps, so that a run makes no more calls than its code has bytes, and that calls nest
no deeper than the limit allows.  With codes of at most `longest` bytes, the calls form a tree of
bounded degree and bounded height.

* `Machine.start_calls` — a run makes no more calls than its code has bytes.
* `Bounded` — what is noted of an execution: how many engines started, and with what.
* **`runMessage_bounded`** — a tree of calls, by induction on the levels that are left.
* **`execute_bounded`** — a whole execution, with the course of each run in it.
-/

namespace ContractHost

variable {σ : Type}

/-! ## Calls of a run -/

/-- However it is answered, the program makes so many calls at most. -/
inductive Program.CallsAtMost : ℕ → Program σ → Prop
  | finish {limit : ℕ} (state : σ) (reply : Reply) : CallsAtMost limit (.finish state reply)
  | crash {limit : ℕ} (state : σ) (reason : Option String) :
      CallsAtMost limit (.crash state reason)
  | ask {limit : ℕ} (query : Query) {next : query.Answer → Program σ}
      (each : ∀ answer, CallsAtMost limit (next answer)) : CallsAtMost limit (.ask query next)
  | call {limit : ℕ} (state : σ) (sent : Bytes) {next : σ → Reply → Program σ}
      (each : ∀ state reply, CallsAtMost limit (next state reply)) :
      CallsAtMost (limit + 1) (.call state sent next)

lemma Program.CallsAtMost.mono {limit limit' : ℕ} {program : Program σ}
    (calls : program.CallsAtMost limit) (le : limit ≤ limit') : program.CallsAtMost limit' := by
  induction calls generalizing limit' with
  | finish state reply => exact .finish state reply
  | crash state reason => exact .crash state reason
  | ask query _ ih => exact .ask query fun answer => ih answer le
  | call state sent _ ih =>
      cases limit' with
      | zero => exact absurd le (Nat.not_succ_le_zero _)
      | succ limit' =>
          exact .call state sent fun state reply => ih state reply (Nat.le_of_succ_le_succ le)

namespace Machine

/-- However it is answered, the step makes so many calls at most. -/
inductive Step.CallsAtMost : ℕ → Step → Prop
  | next {limit : ℕ} (state : State) : CallsAtMost limit (.next state)
  | halt {limit : ℕ} (result : Result) : CallsAtMost limit (.halt result)
  | ask {limit : ℕ} (query : Query) {after : query.Answer → Step}
      (each : ∀ answer, CallsAtMost limit (after answer)) : CallsAtMost limit (.ask query after)
  | call {limit : ℕ} (sent : Bytes) {after : Reply → Step}
      (each : ∀ reply, CallsAtMost limit (after reply)) : CallsAtMost (limit + 1) (.call sent after)

namespace Step

variable {limit : ℕ}

lemma attempt_calls {α : Type} {computation : Except Status α} {next : α → Except Status Step}
    (each : ∀ value, CallsAtMost limit (attempt (next value))) :
    CallsAtMost limit (attempt (computation >>= next)) := by
  cases computation with
  | ok value => exact each value
  | error status => exact .halt _

lemma proceed_calls (state : Except Status State) : CallsAtMost limit (proceed state) := by
  cases state with
  | ok state => exact .next state
  | error status => exact .halt _

lemma CallsAtMost.andThen {step : Step} (calls : step.CallsAtMost limit) {limit' : ℕ}
    {rest : State → Program Unit} (further : ∀ state, (rest state).CallsAtMost limit') :
    (step.andThen rest).CallsAtMost (limit' + limit) := by
  induction calls with
  | next state => exact (further state).mono (Nat.le_add_right _ _)
  | halt result => exact .finish () _
  | ask query _ ih => exact .ask query ih
  | call sent _ ih => exact .call () sent fun _ reply => ih reply

end Step

lemma executeCall_calls (setting : Setting) (state : State) :
    (Step.attempt (executeCall setting state)).CallsAtMost 1 := by
  -- seven words are taken off the stack
  iterate 7 refine Step.attempt_calls fun _ => ?_
  dsimp only
  split_ifs
  · exact .halt _
  refine Step.attempt_calls fun _ => Step.attempt_calls fun _ => ?_
  split
  · exact .halt _
  · exact .call _ fun _ => Step.proceed_calls _

/-- An instruction makes one call at most. -/
lemma execute_calls (setting : Setting) (state : State) (instruction : Instruction) :
    (execute setting state instruction).CallsAtMost 1 := by
  cases instruction with
  | stop | undefined => exact .halt _
  | push | memorySize | address | add | callDataLoad | duplicate | memoryStore =>
      exact Step.proceed_calls _
  | blockNumber => exact .ask _ fun _ => Step.proceed_calls _
  | balance | slotLoad =>
      exact Step.attempt_calls fun _ => .ask _ fun _ => Step.proceed_calls _
  | slotStore =>
      iterate 3 refine Step.attempt_calls fun _ => ?_
      exact .ask _ fun _ => .next _
  | log topicCount =>
      iterate 5 refine Step.attempt_calls fun _ => ?_
      refine .ask _ fun answer => ?_
      cases answer with
      | ok _ => exact .next _
      | error _ => exact .halt _
  | call => exact executeCall_calls setting state
  | returnData => exact Step.attempt_calls fun _ => .halt _
  | revert =>
      rw [execute]
      split_ifs
      · exact .halt _
      · exact Step.attempt_calls fun _ => .halt _
  | selfDestruct =>
      iterate 2 refine Step.attempt_calls fun _ => ?_
      exact .ask _ fun _ => .halt _

lemma run_calls (setting : Setting) (code : Array UInt8) (limit place : ℕ) (state : State) :
    (run setting code limit place state).CallsAtMost limit := by
  induction limit generalizing place state with
  | zero => exact .finish () _
  | succ limit ih =>
      rw [run]
      split_ifs
      · exact .crash () _
      · exact .finish () _
      · exact (execute_calls setting _ _).andThen fun state => ih _ state
      · exact .finish () _

/-- **A run makes no more calls than its code has bytes.** -/
theorem start_calls (revision : Revision) (handed code : Bytes) :
    (start revision handed code).CallsAtMost code.length := by
  rw [start]
  split
  · exact run_calls _ _ _ _ _
  · exact .finish () _

end Machine

/-! ## What is noted -/

/-- An engine starts. -/
def Event.starts : Event → Bool
  | .started _ _ _ => true
  | _ => false

/-- An engine that starts does so on code of this length at most, and its gas can be charged. -/
def Event.Within (longest : ℕ) : Event → Prop
  | .started _ handed code => code.length ≤ longest ∧ ∃ message input,
      CallMessage.unpack handed = .ok (message, input) ∧ message.gas ≠ Int64.minValue
  | _ => True

/-- So many engines started at most, each of them as it should. -/
structure Bounded (longest limit : ℕ) (notes : List Moment) : Prop where
  few : (notes.countP fun moment => moment.event.starts) ≤ limit
  within : ∀ moment ∈ notes, moment.event.Within longest

section Notes

variable {longest limit : ℕ} {notes : List Moment}

lemma Bounded.mono {limit' : ℕ} (bounded : Bounded longest limit notes) (le : limit ≤ limit') :
    Bounded longest limit' notes :=
  ⟨bounded.few.trans le, bounded.within⟩

/-- An engine is noted that starts. -/
lemma Bounded.start (bounded : Bounded longest limit notes) (host : Host) (event : Event)
    (within : event.Within longest) :
    Bounded longest (limit + 1) (Observer.recorder notes host event) where
  few := by
    rw [Observer.recorder, List.countP_append]
    exact Nat.add_le_add bounded.few List.countP_le_length
  within moment member := by
    rcases List.mem_append.1 member with earlier | last
    · exact bounded.within moment earlier
    · rw [List.mem_singleton.1 last]
      exact within

/-- Something else is noted. -/
lemma Bounded.note (bounded : Bounded longest limit notes) (host : Host) (event : Event)
    (quiet : event.starts = false) :
    Bounded longest limit (Observer.recorder notes host event) where
  few := by
    have uncounted : [(⟨host, event⟩ : Moment)].countP (fun moment => moment.event.starts) = 0 :=
      List.countP_eq_zero.2 (by simp [quiet])
    rw [Observer.recorder, List.countP_append, uncounted]
    exact bounded.few
  within moment member := by
    rcases List.mem_append.1 member with earlier | last
    · exact bounded.within moment earlier
    · rw [List.mem_singleton.1 last]
      cases event with
      | started => cases quiet
      | _ => trivial

end Notes

/-! ## A tree of calls -/

/-- No code is longer than this. -/
def Store.CodesWithin (longest : ℕ) (store : Store) : Prop :=
  ∀ address, (store.code address).length ≤ longest

/-- A code that is not too long may be deployed. -/
lemma Store.CodesWithin.deploy {longest : ℕ} {store : Store} (codes : store.CodesWithin longest)
    (address : Address) {code : Bytes} (short : code.length ≤ longest) :
    (store.deploy address code).CodesWithin longest := by
  intro other
  rw [Store.code, Store.deploy, Store.modify, Store.get?_insert]
  split_ifs
  · exact short
  · exact codes other

/-- Codes do not change. -/
lemma Session.codesWithin {longest : ℕ} {host last : Host} {moments : List Moment}
    (session : Session host moments last) (codes : host.store.CodesWithin longest) :
    last.store.CodesWithin longest := by
  intro address
  rw [session.store_extends.code_eq]
  exact codes address

section Tree

variable {longest limit per : ℕ} {settings : Settings} {depth : UInt32}

/-- A program with few calls, each of which starts few engines, starts few engines. -/
lemma Program.run_bounded {law : Law} {program : Program Unit} (calls : program.CallsAtMost limit)
    (keeps : program.Keeps law)
    (serves : ∀ world sent noted, world.host.RunsAt settings depth →
      world.host.store.CodesWithin longest → law.calling sent → Bounded longest noted world.notes →
      Bounded longest (noted + per)
        (serveCall Machine.engine Observer.recorder () world sent).2.2.notes)
    {world : World (List Moment)} (running : world.host.RunsAt settings depth)
    (codes : world.host.store.CodesWithin longest) {noted : ℕ}
    (bounded : Bounded longest noted world.notes) :
    Bounded longest (noted + limit * per)
      (program.run ⟨World.ask Observer.recorder, serveCall Machine.engine Observer.recorder⟩
        world).2.2.notes := by
  induction calls generalizing world noted with
  | finish state reply => exact bounded.mono (Nat.le_add_right _ _)
  | crash state reason => exact bounded.mono (Nat.le_add_right _ _)
  | ask query each ih =>
      have asked : Session world.host _ (world.host.answer query).2 := .asked query (.idle _)
      exact ih _ (keeps world.host).2 (asked.runsAt running) (asked.codesWithin codes)
        (bounded.note _ _ rfl)
  | @call limit state sent next each ih =>
      obtain ⟨lawful, further⟩ := keeps
      have later := serves world sent noted running codes lawful bounded
      obtain ⟨moments, served, -⟩ :=
        serveCall_served Machine.engine Observer.recorder () world.host world.notes sent
      have left := served.session.runsAt running
      have codes := served.session.codesWithin codes
      simp only [Program.run]
      generalize serveCall Machine.engine Observer.recorder () world sent = made at later left codes
      obtain ⟨reply, after, world'⟩ := made
      rw [Nat.succ_mul, Nat.add_comm _ per, ← Nat.add_assoc]
      exact ih after reply (further after reply) left codes later

/-- The run of a message, with as many levels left, starts few engines. -/
def RunsBounded (longest levels limit : ℕ) : Prop :=
  ∀ (world : World (List Moment)) (message : CallMessage) (input : Bytes) (noted : ℕ),
    world.host.levelsFrom message.depth = levels → world.host.store.CodesWithin longest →
    message.gas ≠ Int64.minValue → (message.kind.isCreate = true → input.length ≤ longest) →
    Bounded longest noted world.notes →
    Bounded longest (noted + limit)
      (runMessage Machine.engine Observer.recorder () world message input).2.2.notes

/-- The calls of a frame start few engines, if the runs one level below do. -/
lemma serveCall_bounded {levels : ℕ} (runs : RunsBounded longest levels per) {message : CallMessage}
    {world : World (List Moment)} (running : world.host.RunsAt settings message.depth)
    (left : world.host.levelsFrom message.depth = levels + 1)
    (codes : world.host.store.CodesWithin longest) {sent : Bytes}
    (lawful : (Machine.conduct message).calling sent) {noted : ℕ}
    (bounded : Bounded longest noted world.notes) :
    Bounded longest (noted + per)
      (serveCall Machine.engine Observer.recorder () world sent).2.2.notes := by
  obtain ⟨nested, input, readable, -, charged, kind⟩ := lawful
  have called := bounded.note world.host (.calling sent) rfl
  have ordinary : (nested.withDepth (deeper message.depth)).kind.isCreate = true →
      input.length ≤ longest := by
    intro create
    rw [CallMessage.withDepth, kind] at create
    cases create
  have depth : (world.note Observer.recorder (.calling sent)).host.depthFor nested
      = deeper message.depth := running.depthFor nested
  have ran := runs (world.note Observer.recorder (.calling sent))
    (nested.withDepth (deeper message.depth)) input noted (Host.levelsFrom_deeper left) codes
    charged ordinary called
  simp only [serveCall_eq, runPacked, runPackedWith, readable, depth]
  exact ran.note _ _ rfl

/-- The run of a message starts one engine, and those of its calls. -/
lemma runHanded_bounded {levels : ℕ} (runs : RunsBounded longest levels per)
    {message : CallMessage} {world : World (List Moment)} {input handed code : Bytes}
    (left : world.host.levelsFrom message.depth = levels + 1)
    (codes : world.host.store.CodesWithin longest) (charged : message.gas ≠ Int64.minValue)
    (packs : message.pack input = .ok handed) (short : code.length ≤ longest) {noted : ℕ}
    (bounded : Bounded longest noted world.notes) :
    Bounded longest (noted + (longest * per + 1))
      (runHanded Machine.engine Observer.recorder () world message handed code).2.2.notes := by
  have started := bounded.start (world.host.enter message)
    (.started world.host.settings.revision handed code)
    ⟨short, _, input, CallMessage.unpack_packed packs, charged⟩
  have calls := (Machine.start_calls world.host.settings.revision handed code).mono short
  have ran := Program.run_bounded calls
    (Machine.start_keeps packs world.host.settings.revision code)
    (fun inner sent noted (running : inner.host.RunsAt world.host.settings _) codes lawful =>
      serveCall_bounded runs running ((running.levelsFrom_eq _).trans left) codes lawful)
    (show (World.note Observer.recorder ⟨world.host.enter message, world.notes⟩
      (.started world.host.settings.revision handed code)).host.RunsAt _ _ from
      world.host.runsAt_enter message)
    codes started
  have sum : noted + (longest * per + 1) = noted + 1 + longest * per := by ring
  rw [sum]
  exact ran.note _ _ rfl

/-- **A tree of calls starts as many engines as its degree and its height allow.** -/
theorem runMessage_bounded (longest levels : ℕ) :
    RunsBounded longest levels (∑ i ∈ Finset.range levels, longest ^ i) := by
  induction levels with
  | zero =>
      intro world message input noted exhausted codes charged create bounded
      rw [runMessage_rejected _ _ _ _ input exhausted, Finset.range_zero, Finset.sum_empty]
      exact bounded
  | succ levels ih =>
      intro world message input noted left codes charged create bounded
      have shallow := Host.lt_of_levelsFrom left
      by_cases fits : input.length < UInt32.size
      · have packs : message.pack input = .ok _ := if_pos fits
        have short : (world.host.codeFor message input).length ≤ longest := by
          rw [Host.codeFor]
          split_ifs with creates
          · exact create creates
          · exact codes _
        rw [runMessage_eq _ _ _ world shallow packs, geom_sum_succ]
        exact runHanded_bounded ih left codes charged packs short bounded
      · have packs : message.pack input = .error _ := if_neg fits
        rw [runMessage_unpackable _ _ _ world shallow packs]
        exact bounded.mono (Nat.le_add_right _ _)

end Tree

/-! ## Executions -/

/-- **Executions of the machine are bounded whatever the code.**  With `longest` bytes of code at
most, no more engines start than a tree has nodes of which each has `longest` children and which is
as high as levels are left, none if there are no levels.  Each of them is handed a message on which
it takes its course whatever it is answered, in `longest` turns at most, and always forward. -/
theorem execute_bounded (host : Host) (message : CallMessage) (input : Bytes) (longest : ℕ)
    (codes : host.store.CodesWithin longest) (charged : message.gas ≠ Int64.minValue)
    (create : message.kind.isCreate = true → input.length ≤ longest) :
    let notes := (execute Machine.engine Observer.recorder () ⟨host, []⟩ message input).2.2.notes
    (notes.countP fun moment => moment.event.starts)
      ≤ ∑ i ∈ Finset.range (host.settings.maxCallDepth.toNat - message.depth.toNat), longest ^ i ∧
    ∀ moment ∈ notes, ∀ revision handed code, moment.event = .started revision handed code →
      ∃ received sent, CallMessage.unpack handed = .ok (received, sent) ∧
        ∀ (ω : Type) (handler : Handler Unit ω) (world : ω),
          let course := Machine.courseOn revision received sent code handler world
          (Machine.start revision handed code).run handler world
            = (.finished course.result.encode, (), course.world) ∧
          course.turns.length ≤ longest ∧
          (course.turns.map Machine.Turn.place).Pairwise (· < ·) := by
  intro notes
  obtain ⟨few, within⟩ := runMessage_bounded longest _ ⟨{ host with fault := none }, []⟩ message
    input 0 rfl codes charged create ⟨le_rfl, List.forall_mem_nil _⟩
  refine ⟨few.trans_eq (Nat.zero_add _), fun moment member revision handed code started => ?_⟩
  have here := within moment member
  rw [started] at here
  obtain ⟨short, received, sent, readable, charged⟩ := here
  refine ⟨received, sent, readable, fun ω handler world => ?_⟩
  have forward := Machine.courseOn_forward revision received sent code handler world
  exact ⟨Machine.start_eq_courseOn readable charged, forward.length_le.trans short,
    forward.ascending⟩

/-- Where three levels are allowed, an account that calls itself starts three engines. -/
theorem selfCaller_bounded :
    let host : Host := { store := selfCaller, settings := { maxCallDepth := 3 } }
    let message := CallMessage.plain Address.zero Address.zero 100
    let notes := (execute Machine.engine Observer.recorder () ⟨host, []⟩ message []).2.2.notes
    host.store.CodesWithin 17 ∧ message.gas ≠ Int64.minValue ∧ ¬ message.kind.isCreate ∧
      (notes.countP fun moment => moment.event.starts) = 3 ∧
      (notes.countP fun moment => moment.event.starts) ≤ 1 + 17 + 17 ^ 2 := by
  intro host message notes
  have codes : host.store.CodesWithin 17 :=
    Store.CodesWithin.deploy (fun _ => Nat.zero_le 17) Address.zero (by decide)
  have charged : message.gas ≠ Int64.minValue := by decide
  have ordinary : ¬ message.kind.isCreate := by decide
  obtain ⟨few, -⟩ := execute_bounded host message [] 17 codes charged (absurd · ordinary)
  exact ⟨codes, charged, ordinary, by decide +kernel, few⟩

end ContractHost
