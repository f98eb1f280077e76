import ContractHost.Host.Event

/-!
# Running calls

A call runs in a frame of its own: the frame is pushed, the engine runs with it on top, and the
frame is taken off again however the run ended.  Its diff is handed to whoever made the call and is
not merged here.

* `runInFrame` runs a message in a frame.  The number of further levels that may run below the
  caller bounds the recursion; without any, the call is rejected before an engine starts.
* `runPacked` runs a packed message one level below the frame on top, whatever depth the message
  itself claims.
* `serveCall` is a nested call as the engine sees it.  A success is merged into the diff of the
  caller; any other ending leaves that diff alone.  A call that could not be carried out is
  answered as a failure, and its fault is kept for the end of the execution.
-/

namespace ContractHost

/-- What comes of a call: its result, and what it changed. -/
structure Outcome where
  result : Result
  /-- The changes, which are not merged into anything yet. -/
  diff : FrameDiff
deriving DecidableEq

namespace Outcome

/-- A call that was refused before it started: it failed, and nothing has changed. -/
def rejected (fault : Fault) : Outcome := ⟨Result.failure fault.status, {}⟩

/-- The outcome of a frame whose engine ended.  An engine that died or handed back no result is a
fault. -/
def ofEnding (ending : Ending) (diff : FrameDiff) : Except Fault Outcome :=
  match ending with
  | .crashed reason => .error (.engineCrashed reason)
  | .finished reply =>
    match Result.decode reply.toList with
    | .ok result => .ok ⟨result, diff⟩
    | .error fault => .error fault

end Outcome

namespace Host

/-- The code that a message runs: its input if it creates an account, else the code of its
destination. -/
def codeFor (host : Host) (message : CallMessage) (input : Bytes) : Bytes :=
  if message.kind.isCreate then input else host.store.code message.destination

/-- The depth at which a call runs: one below the frame on top, or what its message says if no call
is running. -/
def depthFor (host : Host) (message : CallMessage) : UInt32 :=
  match host.stack.current? with
  | some parent => deeper parent.depth
  | none => message.depth

/-- How many levels of calls may run from a depth on. -/
def levelsFrom (host : Host) (depth : UInt32) : Nat :=
  host.settings.maxCallDepth.toNat - depth.toNat

def enter (host : Host) (message : CallMessage) : Host :=
  { host with stack := host.stack.push { message } }

/-- Takes frames off until `size` are left, and returns the diff of the last one taken off. -/
def leave (host : Host) (size : Nat) : FrameDiff × Host :=
  let (frame, stack) := host.stack.popTo size
  (match frame with
    | some frame => frame.diff
    | none => {},
    { host with stack })

/-- Settles a nested call in the frame that made it: a success is merged, a fault is kept. -/
def settle (host : Host) : Except Fault Outcome → Reply × Host
  | .ok outcome =>
    (outcome.result.encode,
      if outcome.result.isSuccess then host.modifyDiff (·.merge outcome.diff) else host)
  | .error fault => ((Result.failure fault.status).encode, host.keepFault fault)

end Host

variable {σ τ : Type}

/-- How a message is run in a frame, with the state of the engine before and after. -/
abbrev MessageRunner (σ τ : Type) :=
  σ → World τ → CallMessage → (input : Bytes) → Except Fault Outcome × σ × World τ

/-- Runs a packed message one level below the frame on top. -/
def runPackedWith (run : MessageRunner σ τ) (state : σ) (world : World τ) (packed : Bytes) :
    Except Fault Outcome × σ × World τ :=
  match CallMessage.unpack packed with
  | .error fault => (.error fault, state, world)
  | .ok (message, input) => run state world (message.withDepth (world.host.depthFor message)) input

/-- Serves a nested call of an engine. -/
def serveCallWith (watch : Observer τ) (run : MessageRunner σ τ) (state : σ) (world : World τ)
    (packed : Bytes) : Reply × σ × World τ :=
  let (outcome, state, world) := runPackedWith run state (world.note watch (.calling packed)) packed
  let (reply, host) := world.host.settle outcome
  (reply, state, { world with host }.note watch (.replied reply))

/-- Runs a message in a frame of its own, with at most `levels` levels of frames. -/
def runInFrame (engine : Engine σ) (watch : Observer τ) : (levels : Nat) → MessageRunner σ τ
  | 0, state, world, message, _ =>
    (.ok (.rejected (.depthExceeded message.depth world.host.settings.maxCallDepth)), state, world)
  | levels + 1, state, world, message, input =>
    match message.pack input with
    | .error fault => (.error fault, state, world)
    | .ok packed =>
      let revision := world.host.settings.revision
      let code := world.host.codeFor message input
      let size := world.host.stack.size
      let world :=
        { world with host := world.host.enter message }.note watch (.started revision packed code)
      let handler : Handler σ (World τ) :=
        { answer := World.ask watch
          call := serveCallWith watch (runInFrame engine watch levels) }
      let (ending, state, world) := (engine.start state revision packed code).run handler world
      let world := world.note watch (.ended ending)
      let (diff, host) := world.host.leave size
      (Outcome.ofEnding ending diff, state, { world with host })

/-- Runs a message in a frame of its own, with as many levels as the settings of the host allow at
the depth of the message. -/
def runMessage (engine : Engine σ) (watch : Observer τ) : MessageRunner σ τ :=
  fun state world message input =>
    runInFrame engine watch (world.host.levelsFrom message.depth) state world message input

/-- Runs a packed message one level below the frame on top, or at the depth it claims if no call is
running. -/
def runPacked (engine : Engine σ) (watch : Observer τ) (state : σ) (world : World τ)
    (packed : Bytes) : Except Fault Outcome × σ × World τ :=
  runPackedWith (runMessage engine watch) state world packed

/-- Serves a nested call, as an engine would make it. -/
def serveCall (engine : Engine σ) (watch : Observer τ) (state : σ) (world : World τ)
    (packed : Bytes) : Reply × σ × World τ :=
  serveCallWith watch (runMessage engine watch) state world packed

end ContractHost
