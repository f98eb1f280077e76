import ContractHost.Host.Execution
import ContractHost.Proofs.Retained

/-!
# What an engine never does

Sessions know nothing of engines.  To show that a particular engine never does something, one looks
at its programs: a `Law` says what is allowed, a program keeps it if that holds along every branch
that the answers of some host can lead to, and then every run of the engine keeps it at every
moment.  What is allowed may differ from frame to frame, with the message and the code that the
engine was handed there (`Charter`).

* `Law` — what may be asked, called and handed back.
* `Program.Keeps` and `Engine.Keeps` — keeping a law.  Nested calls run the same engine, so an
  engine has to keep the law on every message that the law lets it send.
* `RunsOn` — what the engine of the frame on top was handed.
* **`execute_chartered`** and **`execute_lawful`** — the moments of an execution.
-/

namespace ContractHost

variable {σ : Type}

/-! ## Laws -/

/-- What an engine is allowed to do. -/
structure Law where
  /-- It may ask the question, and be given the answer. -/
  answered : (query : Query) → query.Answer → Prop
  calling : Bytes → Prop
  ended : Ending → Prop

/-- The law allows an event.  What a host does is not its business. -/
def Law.Allows (law : Law) : Event → Prop
  | .answered query answer => law.answered query answer
  | .calling sent => law.calling sent
  | .ended ending => law.ended ending
  | .started _ _ _ | .replied _ => True

/-- The law allows every event of a run. -/
def Law.Lawful (law : Law) (moments : List Moment) : Prop :=
  ∀ moment ∈ moments, law.Allows moment.event

/-- Whatever the program does is allowed, if its questions are answered as a host would. -/
def Program.Keeps (law : Law) : Program σ → Prop
  | finish _ reply => law.ended (.finished reply)
  | crash _ reason => law.ended (.crashed reason)
  | ask query next => ∀ host : Host,
    law.answered query (host.answer query).1 ∧ (next (host.answer query).1).Keeps law
  | call _ sent next => law.calling sent ∧ ∀ state reply, (next state reply).Keeps law

/-- A law that allows more is kept as well. -/
lemma Program.Keeps.mono {law weaker : Law}
    (implied : ∀ event, law.Allows event → weaker.Allows event) {program : Program σ}
    (keeps : program.Keeps law) : program.Keeps weaker := by
  induction program with
  | finish state reply => exact implied (.ended (.finished reply)) keeps
  | crash state reason => exact implied (.ended (.crashed reason)) keeps
  | ask query next ih =>
      intro host
      exact ⟨implied (.answered query _) (keeps host).1, ih _ (keeps host).2⟩
  | call state sent next ih =>
      exact ⟨implied (.calling sent) keeps.1, fun state' reply => ih _ _ (keeps.2 state' reply)⟩

/-- The engine keeps the law on all messages of some kind, and calls with such messages only. -/
structure Engine.Keeps (engine : Engine σ) (suits : CallMessage → Prop) (law : Law) : Prop where
  starts : ∀ (state : σ) (revision : Revision) (code : Bytes) {message : CallMessage}
    {input handed : Bytes}, suits message → message.pack input = .ok handed →
    (engine.start state revision handed code).Keeps law
  passes : ∀ {sent input : Bytes} {message : CallMessage} (depth : UInt32), law.calling sent →
    CallMessage.unpack sent = .ok (message, input) → suits (message.withDepth depth)

/-! ## Charters -/

/-- What an engine is allowed to do, given the message and the code that it was handed. -/
abbrev Charter := (handed code : Bytes) → Law

/-- In its runs on messages of some kind the engine keeps the law that the charter gives for them,
and it calls with such messages only. -/
structure Engine.Observes (engine : Engine σ) (suits : CallMessage → Prop) (charter : Charter) :
    Prop where
  starts : ∀ (state : σ) (revision : Revision) (code : Bytes) {message : CallMessage}
    {input handed : Bytes}, suits message → message.pack input = .ok handed →
    (engine.start state revision handed code).Keeps (charter handed code)
  passes : ∀ {handed code sent input : Bytes} {message : CallMessage} (depth : UInt32),
    (charter handed code).calling sent → CallMessage.unpack sent = .ok (message, input) →
    suits (message.withDepth depth)

/-- One law for all runs is a charter. -/
lemma Engine.Keeps.observes {engine : Engine σ} {suits : CallMessage → Prop} {law : Law}
    (keeps : engine.Keeps suits law) : engine.Observes suits fun _ _ => law :=
  ⟨keeps.starts, keeps.passes⟩

/-- The event is the doing of an engine. -/
def Event.Acts : Event → Prop
  | .answered _ _ | .calling _ | .ended _ => True
  | .started _ _ _ | .replied _ => False

/-- After some moments, the engine of the frame on top is the one that was handed this message and
this code. -/
def RunsOn (past : List Moment) (handed code : Bytes) : Prop :=
  ∃ outer host revision during,
    past = outer ++ ⟨host, .started revision handed code⟩ :: during ∧ departures during = some []

/-- What an engine does at a moment is allowed by the charter, for what it was handed. -/
def Chartered (charter : Charter) (past : List Moment) (moment : Moment) : Prop :=
  moment.event.Acts →
    ∃ handed code, RunsOn past handed code ∧ (charter handed code).Allows moment.event

/-- From some moments to some more of them the frame on top is the same, and everything that engines
did meanwhile is allowed. -/
def Proceeds (charter : Charter) (earlier later : List Moment) : Prop :=
  ∃ moments, later = earlier ++ moments ∧ departures moments = some [] ∧
    Throughout (Chartered charter) earlier moments

section Proceeds

variable {charter : Charter} {earlier middle later : List Moment} {handed code : Bytes}

lemma Proceeds.refl (charter : Charter) (past : List Moment) : Proceeds charter past past :=
  ⟨[], (List.append_nil past).symm, rfl, trivial⟩

lemma Proceeds.trans (first : Proceeds charter earlier middle)
    (second : Proceeds charter middle later) : Proceeds charter earlier later := by
  obtain ⟨before, rfl, left, early⟩ := first
  obtain ⟨after, rfl, left', late⟩ := second
  refine ⟨before ++ after, List.append_assoc .., ?_, throughout_append.2 ⟨early, late⟩⟩
  rw [departures_append left, left']
  rfl

/-- What an engine says to its host leaves its frame on top, and so does what it is told. -/
lemma Proceeds.note (host : Host) {event : Event} (stays : departures [⟨host, event⟩] = some [])
    (chartered : Chartered charter earlier ⟨host, event⟩) :
    Proceeds charter earlier (Observer.recorder earlier host event) :=
  ⟨[⟨host, event⟩], rfl, stays, chartered, trivial⟩

lemma RunsOn.proceeds (runs : RunsOn earlier handed code)
    (proceeds : Proceeds charter earlier later) : RunsOn later handed code := by
  obtain ⟨outer, host, revision, during, rfl, left⟩ := runs
  obtain ⟨moments, rfl, left', -⟩ := proceeds
  refine ⟨outer, host, revision, during ++ moments, by simp, ?_⟩
  rw [departures_append left, left']
  rfl

/-- A frame that is entered is left again, and its engine may do what it was handed allows. -/
lemma Proceeds.visit {entered last : Host} {revision : Revision} {ending : Ending}
    (proceeds : Proceeds charter
      (Observer.recorder earlier entered (.started revision handed code)) later)
    (allowed : (charter handed code).ended ending) :
    Proceeds charter earlier (Observer.recorder later last (.ended ending)) := by
  have runsOn : RunsOn (Observer.recorder earlier entered (.started revision handed code))
      handed code := ⟨earlier, entered, revision, [], rfl, rfl⟩
  have stillOn := runsOn.proceeds proceeds
  obtain ⟨during, rfl, left, chartered⟩ := proceeds
  refine ⟨⟨entered, .started revision handed code⟩ :: (during ++ [⟨last, .ended ending⟩]), ?_, ?_,
    False.elim, throughout_append.2 ⟨chartered, ?_, trivial⟩⟩
  · simp [Observer.recorder]
  · simp only [departures, departures_append left]
    rfl
  · exact fun _ => ⟨handed, code, stillOn, allowed⟩

end Proceeds

/-! ## Runs -/

/-- On a suitable message the run proceeds as the charter allows. -/
def RunsChartered (suits : CallMessage → Prop) (charter : Charter)
    (run : MessageRunner σ (List Moment)) : Prop :=
  ∀ (state : σ) (world : World (List Moment)) (message : CallMessage) (input : Bytes),
    suits message → Proceeds charter world.notes (run state world message input).2.2.notes

section Runs

variable {engine : Engine σ} {suits : CallMessage → Prop} {charter : Charter} {law : Law}

lemma serveCallWith_chartered (observes : engine.Observes suits charter)
    {run : MessageRunner σ (List Moment)} (runs : RunsChartered suits charter run) (state : σ)
    (world : World (List Moment)) {handed code sent : Bytes}
    (runsOn : RunsOn world.notes handed code) (allowed : (charter handed code).calling sent) :
    Proceeds charter world.notes
      (serveCallWith Observer.recorder run state world sent).2.2.notes := by
  have made : Proceeds charter world.notes
      (world.note Observer.recorder (.calling sent)).notes :=
    .note world.host rfl fun _ => ⟨handed, code, runsOn, allowed⟩
  simp only [serveCallWith, runPackedWith]
  cases readable : CallMessage.unpack sent with
  | error fault => exact made.trans (.note _ rfl False.elim)
  | ok read =>
      exact (made.trans (runs _ _ _ _ (observes.passes _ allowed readable))).trans
        (.note _ rfl False.elim)

/-- The invariant is that the engine which was handed the message and the code still runs. -/
lemma Program.run_chartered (observes : engine.Observes suits charter)
    {run : MessageRunner σ (List Moment)} (runs : RunsChartered suits charter run)
    {handed code : Bytes} {program : Program σ} (kept : program.Keeps (charter handed code))
    (world : World (List Moment)) (runsOn : RunsOn world.notes handed code) :
    let ran := program.run ⟨World.ask Observer.recorder, serveCallWith Observer.recorder run⟩ world
    Proceeds charter world.notes ran.2.2.notes ∧ (charter handed code).ended ran.1 := by
  induction program generalizing world with
  | finish state reply => exact ⟨.refl charter _, kept⟩
  | crash state reason => exact ⟨.refl charter _, kept⟩
  | ask query next ih =>
      obtain ⟨allowed, rest⟩ := kept world.host
      have asked : Proceeds charter world.notes
          (World.ask Observer.recorder world query).2.notes :=
        .note _ rfl fun _ => ⟨handed, code, runsOn, allowed⟩
      obtain ⟨proceeds, ended⟩ := ih _ rest _ (runsOn.proceeds asked)
      exact ⟨asked.trans proceeds, ended⟩
  | call state sent next ih =>
      have served := serveCallWith_chartered observes runs state world runsOn kept.1
      obtain ⟨proceeds, ended⟩ := ih _ _ (kept.2 _ _) _ (runsOn.proceeds served)
      exact ⟨served.trans proceeds, ended⟩

theorem runInFrame_chartered (observes : engine.Observes suits charter) (levels : ℕ) :
    RunsChartered suits charter (runInFrame engine Observer.recorder levels) := by
  induction levels with
  | zero => exact fun _ world _ _ _ => .refl charter world.notes
  | succ levels ih =>
      intro state world message input suitable
      simp only [runInFrame]
      cases packs : message.pack input with
      | error fault => exact .refl charter world.notes
      | ok handed =>
          obtain ⟨proceeds, ended⟩ := Program.run_chartered observes ih
            (observes.starts state world.host.settings.revision _ suitable packs)
            (World.note Observer.recorder ⟨world.host.enter message, world.notes⟩
              (.started world.host.settings.revision handed (world.host.codeFor message input)))
            ⟨world.notes, _, _, [], rfl, rfl⟩
          exact proceeds.visit ended

/-- **Everything that the engines of an execution do is allowed by the charter,** for what each of
them was handed, if the engine observes it and the message at the root suits. -/
theorem execute_chartered (observes : engine.Observes suits charter) {state : σ} {host : Host}
    {message : CallMessage} (suitable : suits message) {input : Bytes}
    {run : Except Fault Execution × σ × World (List Moment)}
    (ran : execute engine Observer.recorder state ⟨host, []⟩ message input = run) :
    Throughout (Chartered charter) [] run.2.2.notes := by
  subst ran
  obtain ⟨moments, noted, -, chartered⟩ := runInFrame_chartered observes
    (Host.levelsFrom { host with fault := none } message.depth) state
    ⟨{ host with fault := none }, []⟩ message input suitable
  rw [List.nil_append] at noted
  subst noted
  exact chartered

/-- **Every event of an execution is allowed by the law,** if the engine keeps it and the message at
the root suits. -/
theorem execute_lawful (keeps : engine.Keeps suits law) {state : σ} {host : Host}
    {message : CallMessage} (suitable : suits message) {input : Bytes}
    {run : Except Fault Execution × σ × World (List Moment)}
    (ran : execute engine Observer.recorder state ⟨host, []⟩ message input = run) :
    law.Lawful run.2.2.notes := by
  have chartered := execute_chartered keeps.observes suitable ran
  intro moment member
  obtain ⟨before, after, shown⟩ := List.append_of_mem member
  rw [shown] at chartered
  have here := chartered.at_split
  obtain ⟨later, event⟩ := moment
  cases event with
  | started | replied => trivial
  | answered | calling | ended =>
      obtain ⟨_, _, -, allowed⟩ := here trivial
      exact allowed

end Runs

end ContractHost
