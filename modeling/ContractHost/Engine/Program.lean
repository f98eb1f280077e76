import ContractHost.Engine.Query
import ContractHost.Result
import ContractHost.Revision

/-!
# Engines and the runs they perform

An engine is handed a message and some code, talks to its host, and hands back a reply.  What it
will do is a `Program`: a tree that either has come to its end, or asks a question or makes a
nested call and continues according to the answer.  So a program is the whole behaviour of one
run, for every way in which a host might answer.

An engine may keep a state of its own between runs, of some type `σ`.  Nested calls run the same
engine, so a run gives its state away when it makes one and gets it back with the reply.  An engine
whose runs depend on nothing but what it is handed is an `Engine Unit`.

* `Program` — what one run will do.
* `Engine` — how the runs of an engine start.
* `Handler` — how the questions and calls of a program are served, with a state `ω`.
* `Program.run` — a program together with a handler, to its end.
-/

namespace ContractHost

/-- What a run of an engine with state `σ` will do. -/
inductive Program (σ : Type) where
  | finish (state : σ) (reply : Reply)
  /-- The engine dies, perhaps with a reason in words. -/
  | crash (state : σ) (reason : Option String)
  | ask (query : Query) (next : query.Answer → Program σ)
  /-- The run makes a nested call, given as a packed message. -/
  | call (state : σ) (message : Bytes) (next : σ → Reply → Program σ)

/-- An engine that runs contracts and keeps a state `σ` of its own. -/
structure Engine (σ : Type) where
  name : String
  version : String
  start : σ → Revision → (message code : Bytes) → Program σ

inductive Ending where
  | finished (reply : Reply)
  /-- The engine died and handed nothing back. -/
  | crashed (reason : Option String)
deriving DecidableEq

/-- How what a program wants is served, in a world with state `ω`. -/
structure Handler (σ ω : Type) where
  answer : ω → (query : Query) → query.Answer × ω
  call : σ → ω → (message : Bytes) → Reply × σ × ω

/-- Performs a run to its end: how it ended, and the states of engine and world after it. -/
def Program.run {σ ω : Type} (handler : Handler σ ω) : Program σ → ω → Ending × σ × ω
  | finish state reply, world => (.finished reply, state, world)
  | crash state reason, world => (.crashed reason, state, world)
  | ask query next, world =>
    let (answer, world) := handler.answer world query
    (next answer).run handler world
  | call state message next, world =>
    let (reply, state, world) := handler.call state world message
    (next state reply).run handler world

end ContractHost
