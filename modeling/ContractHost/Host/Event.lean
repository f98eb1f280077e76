import ContractHost.Engine.Program
import ContractHost.Host.Basic

/-!
# Watching a run

Everything that passes between host and engine during a run is an `Event`.  An `Observer` takes
notes of some type `τ`: it is shown every event, together with the host as it is at that moment.
Notes never influence the run, so an observer may keep a full trace, count frames, or compare the
run with a reference that it carries along.

While a frame is on top of the stack, the events are those of its engine.
-/

namespace ContractHost

/-- Something that passed between host and engine. -/
inductive Event where
  /-- An engine started on a packed message and some code; its frame is on top of the stack. -/
  | started (revision : Revision) (message code : Bytes)
  /-- The engine ended; its frame is still on top of the stack. -/
  | ended (ending : Ending)
  | answered (query : Query) (answer : query.Answer)
  /-- A nested call is about to be made. -/
  | calling (message : Bytes)
  | replied (reply : Reply)

/-- Takes notes of the events of a run. -/
abbrev Observer (τ : Type) := τ → Host → Event → τ

def Observer.silent : Observer Unit := fun _ _ _ => ()

/-- A host under observation. -/
structure World (τ : Type) where
  host : Host
  notes : τ

namespace World

variable {τ : Type}

def note (watch : Observer τ) (world : World τ) (event : Event) : World τ :=
  { world with notes := watch world.notes world.host event }

def ask (watch : Observer τ) (world : World τ) (query : Query) : query.Answer × World τ :=
  let (answer, host) := world.host.answer query
  (answer, { world with host }.note watch (.answered query answer))

end World

end ContractHost
