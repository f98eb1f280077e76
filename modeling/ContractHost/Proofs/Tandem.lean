import ContractHost.Proofs.Handover
import ContractHost.Proofs.Lookalike

/-!
# Two runs side by side

Two runs of an engine may start from messages that are not quite the same, or under limits that are
not quite the same, and still do the same for as long as nothing that an engine sees or a host does
depends on the difference.  A `Tandem` says what the runs are to have in common: which messages of
their frames belong together, which bytes they may send for one another, and what their observers
are to note.  It may also name a point at which the first run is lost sight of; from there on
nothing is said.

* `Program.Parallel` — two programs that do the same, up to what they send.
* `Tandem` — a way to compare runs, together with what it takes.
* **`runMessage_tandem`** — runs of messages that belong together agree, by induction on the levels
  that are left; and so do executions (`execute_tandem`).
* `Tandem.ofSame` — runs of the same messages.
-/

namespace ContractHost

variable {σ τ τ' : Type}

/-! ## Programs and events -/

/-- Two programs that do the same, up to what they send. -/
inductive Program.Parallel (sends : Bytes → Bytes → Prop) : Program σ → Program σ → Prop
  | finish (state : σ) (reply : Reply) : Parallel sends (.finish state reply) (.finish state reply)
  | crash (state : σ) (reason : Option String) :
      Parallel sends (.crash state reason) (.crash state reason)
  | ask (query : Query) {next next' : query.Answer → Program σ}
      (each : ∀ answer, Parallel sends (next answer) (next' answer)) :
      Parallel sends (.ask query next) (.ask query next')
  | call (state : σ) {sent sent' : Bytes} {next next' : σ → Reply → Program σ}
      (related : sends sent sent')
      (each : ∀ state reply, Parallel sends (next state reply) (next' state reply)) :
      Parallel sends (.call state sent next) (.call state sent' next')

/-- A program does the same as itself. -/
lemma Program.Parallel.refl (program : Program σ) : program.Parallel Eq program := by
  induction program with
  | finish state reply => exact .finish state reply
  | crash state reason => exact .crash state reason
  | ask query next ih => exact .ask query ih
  | call state sent next ih => exact .call state rfl ih

/-- The events are the same, up to the messages of frames and to what is sent. -/
inductive Event.Parallel (near : CallMessage → CallMessage → Prop) (sends : Bytes → Bytes → Prop) :
    Event → Event → Prop
  | started (revision : Revision) {message message' : CallMessage} {input handed handed' : Bytes}
      (code : Bytes) (related : near message message') (packs : message.pack input = .ok handed)
      (packs' : message'.pack input = .ok handed') :
      Parallel near sends (.started revision handed code) (.started revision handed' code)
  | ended (ending : Ending) : Parallel near sends (.ended ending) (.ended ending)
  | answered (query : Query) (answer : query.Answer) :
      Parallel near sends (.answered query answer) (.answered query answer)
  | calling {sent sent' : Bytes} (related : sends sent sent') :
      Parallel near sends (.calling sent) (.calling sent')
  | replied (reply : Reply) : Parallel near sends (.replied reply) (.replied reply)

/-- Where messages and what is sent are the same, the events are. -/
lemma Event.Parallel.eq {event event' : Event} (parallel : Event.Parallel Eq Eq event event') :
    event = event' := by
  cases parallel with
  | started revision code same packs packs' =>
      rw [same, packs'] at packs
      cases packs
      rfl
  | calling same => rw [same]
  | ended | answered | replied => rfl

/-! ## Ways to compare runs -/

/-- What is sent by two frames at these depths cannot be read, or leads to messages that belong
together. -/
def Reaches (near : CallMessage → CallMessage → Prop) (depth depth' : UInt32)
    (sent sent' : Bytes) : Prop :=
  (∃ fault, CallMessage.unpack sent = .error fault ∧ CallMessage.unpack sent' = .error fault) ∨
  ∃ nested nested' input, CallMessage.unpack sent = .ok (nested, input) ∧
    CallMessage.unpack sent' = .ok (nested', input) ∧
    near (nested.withDepth (deeper depth)) (nested'.withDepth (deeper depth'))

/-- The same bytes lead to the same message. -/
lemma Reaches.refl (depth : UInt32) (sent : Bytes) : Reaches Eq depth depth sent sent := by
  rw [Reaches]
  cases CallMessage.unpack sent with
  | error fault => exact .inl ⟨fault, rfl, rfl⟩
  | ok read => exact .inr ⟨read.1, read.1, read.2, rfl, rfl, rfl⟩

/-- What two runs of an engine have in common, whose observers may differ. -/
structure Tandem (engine : Engine σ) (watch : Observer τ) (watch' : Observer τ') where
  /-- The messages of two frames that belong together. -/
  near : CallMessage → CallMessage → Prop
  /-- What the engines of such frames may send for one another. -/
  sends : Bytes → Bytes → Prop
  noted : τ → τ' → Prop
  /-- The first run has been lost sight of. -/
  lost : τ → Prop
  /-- How many more levels the second run has. -/
  ahead : ℕ
  sameCode {message message' : CallMessage} : near message message' →
    message.kind = message'.kind ∧ message.destination = message'.destination
  starts (state : σ) (revision : Revision) (code : Bytes) {message message' : CallMessage}
    {input handed handed' : Bytes} : near message message' → message.pack input = .ok handed →
    message'.pack input = .ok handed' →
    (engine.start state revision handed code).Parallel sends
      (engine.start state revision handed' code)
  reaches {message message' : CallMessage} {sent sent' : Bytes} : near message message' →
    message.depth.toNat + 1 < UInt32.size → sends sent sent' →
    Reaches near message.depth message'.depth sent sent'
  shown {notes : τ} {notes' : τ'} {host host' : Host} {event event' : Event} : noted notes notes' →
    host.Resembles host' → Event.Parallel near sends event event' →
    noted (watch notes host event) (watch' notes' host' event')
  staysLost {notes : τ} (host : Host) (event : Event) : lost notes → lost (watch notes host event)
  /-- With more levels for the second run, the first is lost when it has a call rejected. -/
  overdue : ahead = 0 ∨ ∀ (notes : τ) (host : Host) (sent : Bytes) (message : CallMessage)
    (input : Bytes), CallMessage.unpack sent = .ok (message, input) →
    host.settings.maxCallDepth ≤ host.depthFor message → lost (watch notes host (.calling sent))

namespace Tandem

variable {engine : Engine σ} {watch : Observer τ} {watch' : Observer τ'}
  (tandem : Tandem engine watch watch')

/-- The runs are where they should be. -/
def Abreast (world : World τ) (world' : World τ') : Prop :=
  world.host.Resembles world'.host ∧ tandem.noted world.notes world'.notes

/-- The first run is lost, or both came to the same. -/
def Agree {α : Type} (ran : α × σ × World τ) (ran' : α × σ × World τ') : Prop :=
  tandem.lost ran.2.2.notes ∨
    ran.1 = ran'.1 ∧ ran.2.1 = ran'.2.1 ∧ tandem.Abreast ran.2.2 ran'.2.2

variable {tandem}

lemma Abreast.note {world : World τ} {world' : World τ'} (abreast : tandem.Abreast world world')
    {event event' : Event} (parallel : Event.Parallel tandem.near tandem.sends event event') :
    tandem.Abreast (world.note watch event) (world'.note watch' event') :=
  ⟨abreast.1, tandem.shown abreast.2 abreast.1 parallel⟩

lemma Abreast.ask {world : World τ} {world' : World τ'} (abreast : tandem.Abreast world world')
    (query : Query) :
    (World.ask watch world query).1 = (World.ask watch' world' query).1 ∧
      tandem.Abreast (World.ask watch world query).2 (World.ask watch' world' query).2 := by
  obtain ⟨same, resembles⟩ := abreast.1.answer query
  have event : Event.Parallel tandem.near tandem.sends
      (.answered query (world.host.answer query).1)
      (.answered query (world'.host.answer query).1) := by
    rw [same]
    exact .answered query _
  exact ⟨same, resembles, tandem.shown abreast.2 resembles event⟩

/-- A run that is lost stays lost. -/
lemma lost_notesOn (moments : List Moment) {notes : τ} (lost : tandem.lost notes) :
    tandem.lost (watch.notesOn notes moments) := by
  induction moments generalizing notes with
  | nil => exact lost
  | cons moment moments ih => exact ih (tandem.staysLost _ _ lost)

end Tandem

/-! ## Runs -/

section Runs

variable {engine : Engine σ} {watch : Observer τ} {watch' : Observer τ'}
  {tandem : Tandem engine watch watch'} {settings settings' : Settings} {depth depth' : UInt32}

/-- What is noted in the rest of a run comes on top of what was noted before. -/
lemma Program.run_notesOn (engine : Engine σ) (watch : Observer τ) (program : Program σ)
    {world : World τ} (running : world.host.RunsAt settings depth) :
    ∃ moments, (program.run ⟨World.ask watch, serveCall engine watch⟩ world).2.2.notes
      = watch.notesOn world.notes moments := by
  have visits (host : Host) (_ : host.RunsAt settings depth) :
      ServesVisits watch (runMessage engine watch) host :=
    fun message => runMessage_visits engine watch host _
  obtain ⟨moments, -, noted⟩ := Program.run_session visits program world.host running world.notes
  exact ⟨moments, noted⟩

/-- Programs that do the same agree, if their calls do. -/
lemma Program.run_tandem {program program' : Program σ}
    (parallel : program.Parallel tandem.sends program')
    (serves : ∀ state world world' sent sent', world.host.RunsAt settings depth →
      world'.host.RunsAt settings' depth' → tandem.Abreast world world' →
      tandem.sends sent sent' →
      tandem.Agree (serveCall engine watch state world sent)
        (serveCall engine watch' state world' sent'))
    {world : World τ} {world' : World τ'} (running : world.host.RunsAt settings depth)
    (running' : world'.host.RunsAt settings' depth') (abreast : tandem.Abreast world world') :
    tandem.Agree (program.run ⟨World.ask watch, serveCall engine watch⟩ world)
      (program'.run ⟨World.ask watch', serveCall engine watch'⟩ world') := by
  induction parallel generalizing world world' with
  | finish state reply => exact .inr ⟨rfl, rfl, abreast⟩
  | crash state reason => exact .inr ⟨rfl, rfl, abreast⟩
  | ask query each ih =>
      obtain ⟨same, further⟩ := abreast.ask query
      have asked : Session world.host _ (world.host.answer query).2 := .asked query (.idle _)
      have asked' : Session world'.host _ (world'.host.answer query).2 := .asked query (.idle _)
      simp only [Program.run]
      rw [← same]
      exact ih _ (asked.runsAt running) (asked'.runsAt running') further
  | @call state sent sent' next next' related each ih =>
      have runs := serveCall_runsAt engine watch state world sent running
      have runs' := serveCall_runsAt engine watch' state world' sent' running'
      have served := serves state world world' sent sent' running running' abreast related
      simp only [Program.run]
      generalize serveCall engine watch state world sent = made at runs served
      generalize serveCall engine watch' state world' sent' = made' at runs' served
      obtain ⟨reply, after, further⟩ := made
      obtain ⟨reply', after', further'⟩ := made'
      rcases served with lost | ⟨rfl, rfl, abreast⟩
      -- lost in the call, the first run stays lost in what follows
      · obtain ⟨moments, noted⟩ := Program.run_notesOn engine watch (next after reply) runs
        exact .inl (noted ▸ Tandem.lost_notesOn moments lost)
      · exact ih after reply runs runs' abreast

/-- The run of a message, with as many levels left, agrees with that of any that belongs to it. -/
def RunsAbreast (tandem : Tandem engine watch watch') (levels : ℕ) : Prop :=
  ∀ (state : σ) (world : World τ) (world' : World τ') (message message' : CallMessage)
    (input : Bytes), world.host.levelsFrom message.depth = levels →
    world'.host.levelsFrom message'.depth = levels + tandem.ahead →
    tandem.Abreast world world' → tandem.near message message' →
    (levels = 0 → tandem.ahead = 0 ∨ tandem.lost world.notes) →
    tandem.Agree (runMessage engine watch state world message input)
      (runMessage engine watch' state world' message' input)

/-- Calls that agree when they have been run agree when they are settled. -/
lemma serveCall_agree {state : σ} {world : World τ} {world' : World τ'} {sent sent' : Bytes}
    (agree : tandem.Agree
      (runPacked engine watch state (world.note watch (.calling sent)) sent)
      (runPacked engine watch' state (world'.note watch' (.calling sent')) sent')) :
    tandem.Agree (serveCall engine watch state world sent)
      (serveCall engine watch' state world' sent') := by
  rw [serveCall_eq, serveCall_eq]
  generalize runPacked engine watch state _ sent = made at agree ⊢
  generalize runPacked engine watch' state _ sent' = made' at agree ⊢
  obtain ⟨outcome, state, world⟩ := made
  obtain ⟨outcome', state', world'⟩ := made'
  rcases agree with lost | ⟨rfl, rfl, resembles, noted⟩
  · exact .inl (tandem.staysLost _ _ lost)
  · obtain ⟨same, settled⟩ := resembles.settle outcome
    have event : Event.Parallel tandem.near tandem.sends
        (.replied (world.host.settle outcome).1) (.replied (world'.host.settle outcome).1) := by
      rw [same]
      exact .replied _
    exact .inr ⟨same, rfl, settled, tandem.shown noted settled event⟩

/-- Calls agree that lead to messages that belong together, if the runs one level below do. -/
lemma serveCall_tandem {levels : ℕ} (runs : RunsAbreast tandem levels) {state : σ}
    {world : World τ} {world' : World τ'} {sent sent' : Bytes}
    (running : world.host.RunsAt settings depth) (running' : world'.host.RunsAt settings' depth')
    (left : world.host.levelsFrom depth = levels + 1)
    (left' : world'.host.levelsFrom depth' = levels + tandem.ahead + 1)
    (abreast : tandem.Abreast world world') (related : tandem.sends sent sent')
    (reaches : Reaches tandem.near depth depth' sent sent') :
    tandem.Agree (serveCall engine watch state world sent)
      (serveCall engine watch' state world' sent') := by
  have called := abreast.note (.calling related)
  refine serveCall_agree ?_
  rcases reaches with ⟨fault, unreadable, unreadable'⟩
    | ⟨nested, nested', input, readable, readable', near⟩
  · simp only [runPacked, runPackedWith, unreadable, unreadable']
    exact .inr ⟨rfl, rfl, called⟩
  · have level : (world.note watch (.calling sent)).host.depthFor nested = deeper depth :=
      running.depthFor nested
    have level' : (world'.note watch' (.calling sent')).host.depthFor nested' = deeper depth' :=
      running'.depthFor nested'
    simp only [runPacked, runPackedWith, readable, readable', level, level']
    refine runs _ _ _ _ _ _ (Host.levelsFrom_deeper left) (Host.levelsFrom_deeper left') called
      near fun exhausted => ?_
    -- with no level left for the call, it is rejected
    subst exhausted
    refine tandem.overdue.imp_right fun overdue => overdue _ _ _ nested input readable ?_
    rw [running.depthFor nested]
    exact Host.levelsFrom_eq_zero (Host.levelsFrom_deeper left)

/-- The engines of two frames that belong together agree, and so do the frames. -/
lemma runHanded_tandem {levels : ℕ} (runs : RunsAbreast tandem levels)
    {message message' : CallMessage} (near : tandem.near message message') {state : σ}
    {world : World τ} {world' : World τ'} {input handed handed' : Bytes} (code : Bytes)
    (left : world.host.levelsFrom message.depth = levels + 1)
    (left' : world'.host.levelsFrom message'.depth = levels + tandem.ahead + 1)
    (abreast : tandem.Abreast world world') (packs : message.pack input = .ok handed)
    (packs' : message'.pack input = .ok handed') :
    tandem.Agree (runHanded engine watch state world message handed code)
      (runHanded engine watch' state world' message' handed' code) := by
  obtain ⟨resembles, noted⟩ := abreast
  have room := (deeper_toNat (Host.lt_of_levelsFrom left)).1
  have entered : tandem.Abreast ⟨world.host.enter message, world.notes⟩
      ⟨world'.host.enter message', world'.notes⟩ := ⟨resembles.enter message message', noted⟩
  have started := entered.note (.started world.host.settings.revision code near packs packs')
  have ran := Program.run_tandem
    (tandem.starts state world.host.settings.revision code near packs packs')
    (fun state inner inner' sent sent' (running : inner.host.RunsAt world.host.settings _)
      (running' : inner'.host.RunsAt world'.host.settings _) abreast related =>
      serveCall_tandem runs running running' ((running.levelsFrom_eq _).trans left)
        ((running'.levelsFrom_eq _).trans left') abreast related (tandem.reaches near room related))
    (world.host.runsAt_enter message) (world'.host.runsAt_enter message') started
  simp only [runHanded, ← resembles.revision, ← resembles.size]
  generalize Program.run _ _ _ = made at ran
  generalize Program.run _ _ _ = made' at ran
  obtain ⟨ending, after, inner⟩ := made
  obtain ⟨ending', after', inner'⟩ := made'
  rcases ran with lost | ⟨rfl, rfl, abreast⟩
  · exact .inl (tandem.staysLost _ _ lost)
  · obtain ⟨together, shown⟩ := abreast.note (.ended ending)
    obtain ⟨same, leaves⟩ := together.leave world.host.stack.size
    exact .inr ⟨congrArg (Outcome.ofEnding ending) same, rfl, leaves, shown⟩

/-- **Runs of messages that belong together agree,** for as long as the first is not lost. -/
theorem runMessage_tandem (tandem : Tandem engine watch watch') (levels : ℕ) :
    RunsAbreast tandem levels := by
  induction levels with
  | zero =>
      intro state world world' message message' input exhausted left abreast near lost
      rcases lost rfl with same | lost
      · rw [same] at left
        rw [runMessage_rejected engine watch state world input exhausted,
          runMessage_rejected engine watch' state world' input left]
        exact .inr ⟨rfl, rfl, abreast⟩
      · rw [runMessage_rejected engine watch state world input exhausted]
        exact .inl lost
  | succ levels ih =>
      intro state world world' message message' input left left' abreast near _
      rw [Nat.add_right_comm] at left'
      have shallow := Host.lt_of_levelsFrom left
      have shallow' := Host.lt_of_levelsFrom left'
      obtain ⟨kind, destination⟩ := tandem.sameCode near
      have code : world.host.codeFor message input = world'.host.codeFor message' input := by
        rw [Host.codeFor, Host.codeFor, kind, destination, abreast.1.store]
      by_cases fits : input.length < UInt32.size
      · have packs : message.pack input = .ok _ := if_pos fits
        have packs' : message'.pack input = .ok _ := if_pos fits
        rw [runMessage_eq engine watch state world shallow packs,
          runMessage_eq engine watch' state world' shallow' packs', ← code]
        exact runHanded_tandem ih near _ left left' abreast packs packs'
      · have packs : message.pack input = .error _ := if_neg fits
        have packs' : message'.pack input = .error _ := if_neg fits
        rw [runMessage_unpackable engine watch state world shallow packs,
          runMessage_unpackable engine watch' state world' shallow' packs']
        exact .inr ⟨rfl, rfl, abreast⟩

/-- **Executions agree** whose messages belong together and have the same gas. -/
theorem execute_tandem (tandem : Tandem engine watch watch') (state : σ) (world : World τ)
    (world' : World τ') (abreast : tandem.Abreast world world') {message message' : CallMessage}
    (near : tandem.near message message') (gas : message.gas = message'.gas) (input : Bytes)
    (left : world'.host.levelsFrom message'.depth
      = world.host.levelsFrom message.depth + tandem.ahead)
    (room : tandem.ahead = 0 ∨ message.depth < world.host.settings.maxCallDepth) :
    tandem.Agree (execute engine watch state world message input)
      (execute engine watch' state world' message' input) := by
  have admitted (exhausted : world.host.levelsFrom message.depth = 0) :
      tandem.ahead = 0 ∨ tandem.lost world.notes := by
    refine room.imp_right fun shallow => ?_
    exact absurd shallow (UInt32.not_lt.2 (Host.levelsFrom_eq_zero exhausted))
  have ran := runMessage_tandem tandem _ state ⟨{ world.host with fault := none }, world.notes⟩
    ⟨{ world'.host with fault := none }, world'.notes⟩ message message' input rfl left
    ⟨abreast.1.withFault none, abreast.2⟩ near admitted
  simp only [execute]
  generalize runMessage engine watch state _ message input = made at ran
  generalize runMessage engine watch' state _ message' input = made' at ran
  obtain ⟨outcome, after, world⟩ := made
  obtain ⟨outcome', after', world'⟩ := made'
  rcases ran with lost | ⟨rfl, rfl, together, shown⟩
  · exact .inl lost
  · have fault : world.host.fault = world'.host.fault := together.fault
    refine .inr ⟨?_, rfl, together.withFault none, shown⟩
    simp only [fault, gas]

end Runs

/-! ## Runs of the same messages -/

namespace Tandem

/-- Runs of the same messages, compared by their notes. -/
def ofSame (engine : Engine σ) (watch : Observer τ) (watch' : Observer τ') (noted : τ → τ' → Prop)
    (shown : ∀ {notes notes' host host'} (event : Event), noted notes notes' →
      host.Resembles host' → noted (watch notes host event) (watch' notes' host' event))
    (lost : τ → Prop)
    (staysLost : ∀ {notes} host event, lost notes → lost (watch notes host event)) (ahead : ℕ)
    (overdue : ahead = 0 ∨ ∀ notes host sent message input,
      CallMessage.unpack sent = .ok (message, input) →
      host.settings.maxCallDepth ≤ host.depthFor message →
      lost (watch notes host (.calling sent))) : Tandem engine watch watch' where
  near := Eq
  sends := Eq
  noted := noted
  lost := lost
  ahead := ahead
  sameCode := by
    rintro message _ rfl
    exact ⟨rfl, rfl⟩
  starts := by
    rintro state revision code message _ input handed handed' rfl packs packs'
    rw [packs] at packs'
    cases packs'
    exact .refl _
  reaches := by
    rintro message _ sent _ rfl - rfl
    exact .refl message.depth sent
  shown together resembles parallel := by
    rw [parallel.eq]
    exact shown _ together resembles
  staysLost := staysLost
  overdue := overdue

/-- A run is the same whoever watches it. -/
def unwatched (engine : Engine σ) (watch : Observer τ) (watch' : Observer τ') :
    Tandem engine watch watch' :=
  ofSame engine watch watch' (fun _ _ => True) (fun _ _ _ => trivial) (fun _ => False)
    (fun _ _ => id) 0 (.inl rfl)

end Tandem

end ContractHost
