import ContractHost.Host.Event
import ContractHost.Machine.Step
import Mathlib.Tactic

/-!
# Guarded computations

Taking bytes from a place, subtracting and copying are total on lists and numbers, whatever the
places and the numbers are.  On a real machine they are not: a place may lie outside, a number may
not fit, a stretch may be too short for what is copied there.  A `Guarded` computation does such
things under a guard, and a guard that does not hold is a trap, which no later step can undo.

It also shows what is otherwise hidden between the questions that a run asks: every state that the
machine passes through.

* `Guarded` — a computation under guards, with the states on its way.
* `Guarded.andThen` — what is left of it as a program, where a trap is a crash.
* `Guarded.Safe` — there is no trap, however the host answers.
* `Guarded.Kept` — the same, with what holds of states and statuses on the way.
  `Guarded.Kept.bind` takes a computation apart.
* `Guarded.states` — the states on the way with a host; **`Guarded.Kept.states`** and
  **`Guarded.Kept.ended`**, what is seen of them and of the end if the property holds.
-/

namespace ContractHost

/-- Why a machine could not go on. -/
inductive Trap where
  /-- A place, or a stretch, that is not there. -/
  | outside
  /-- A number that is too large, or below the smallest one. -/
  | overflow
  /-- As many bytes do not fit there. -/
  | misfit
  /-- The run goes on for longer than it was given. -/
  | endless
deriving DecidableEq

/-- What passes between an engine and its host. -/
def Program.events {σ ω : Type} (host : Handler σ ω) : Program σ → ω → List Event
  | finish _ _, _ => []
  | crash _ _, _ => []
  | ask query next, world =>
    let (answer, world) := host.answer world query
    .answered query answer :: (next answer).events host world
  | call state message next, world =>
    let (reply, state, world) := host.call state world message
    .calling message :: .replied reply :: (next state reply).events host world

/-- The answer is a balance of more bytes than a word has. -/
def Query.Overlong : (query : Query) → query.Answer → Prop
  | .balance _, answer => 32 < answer.length
  | _, _ => False

namespace Machine

/-- Memory and stack keep to their limits, and memory is blank where it is not active. -/
structure State.Bounded (state : State) : Prop where
  stack : state.stack.length ≤ stackLimit
  size : state.memory.size ≤ memoryLimit
  blank : ∀ byte ∈ state.memory.bytes.toList.drop state.memory.size, byte = 0

/-- A computation of the machine under guards. -/
inductive Guarded (α : Type) where
  | done (value : α)
  /-- The run ends with the status. -/
  | fail (status : Status)
  | trap (trap : Trap)
  /-- The machine is in this state on the way. -/
  | pass (state : State) (rest : Guarded α)
  | ask (query : Query) (after : query.Answer → Guarded α)
  | call (message : Bytes) (after : Reply → Guarded α)

namespace Guarded

variable {α β γ ω : Type}

def bind : Guarded α → (α → Guarded β) → Guarded β
  | done value, next => next value
  | fail status, _ => fail status
  | trap reason, _ => trap reason
  | pass state rest, next => pass state (rest.bind next)
  | ask query after, next => ask query fun answer => (after answer).bind next
  | call message after, next => call message fun reply => (after reply).bind next

instance : Monad Guarded where
  pure := done
  bind := bind

section Bind

variable {next : α → Guarded β}

@[simp] lemma pure_eq (value : α) : (pure value : Guarded α) = done value := rfl

@[simp] lemma done_bind (value : α) : done value >>= next = next value := rfl

@[simp] lemma pass_bind (state : State) (rest : Guarded α) :
    pass state rest >>= next = pass state (rest >>= next) := rfl

lemma bind_bind (computation : Guarded α) (further : β → Guarded γ) :
    computation >>= next >>= further = computation >>= fun value => next value >>= further := by
  change (computation.bind next).bind further
    = computation.bind fun value => (next value).bind further
  induction computation with
  | done value => rfl
  | fail status => rfl
  | trap reason => rfl
  | pass state rest ih => exact congrArg (pass state) ih
  | ask query after ih => exact congrArg (ask query) (funext ih)
  | call message after ih => exact congrArg (call message) (funext ih)

end Bind

/-- A computation without anything to guard. -/
def ofExcept : Except Status α → Guarded α
  | .ok value => done value
  | .error status => fail status

/-! ## Guards -/

/-- Numbers that count bytes and places have 64 bits. -/
def placeLimit : Nat := UInt64.size

/-- The sum of two numbers below a limit. -/
def add (limit a b : Nat) : Guarded Nat := if a + b < limit then done (a + b) else trap .overflow

/-- The difference of two numbers without a sign. -/
def sub (a b : Nat) : Guarded Nat := if b ≤ a then done (a - b) else trap .overflow

def byteAt (bytes : Bytes) (place : Nat) : Guarded UInt8 :=
  match bytes[place]? with
  | some byte => done byte
  | none => trap .outside

/-- The bytes from a place up to another. -/
def slice (bytes : Bytes) (first last : Nat) : Guarded Bytes :=
  if first ≤ last ∧ last ≤ bytes.length then done ((bytes.take last).drop first)
  else trap .outside

/-- Overwrites the bytes from a place up to another with as many others. -/
def copy {n : Nat} (target : FixedBytes n) (first last : Nat) (source : Bytes) :
    Guarded (FixedBytes n) :=
  if inside : first ≤ last ∧ last ≤ n then
    if fits : source.length = last - first then done (target.splice first source (by omega))
    else trap .misfit
  else trap .outside

lemma slice_eq {bytes : Bytes} {first last : ℕ} (ordered : first ≤ last)
    (inside : last ≤ bytes.length) : slice bytes first last = done ((bytes.take last).drop first) :=
  if_pos ⟨ordered, inside⟩

lemma copy_eq {n : ℕ} (target : FixedBytes n) {first last : ℕ} {source : Bytes}
    (fits : first + source.length = last) (inside : last ≤ n) :
    copy target first last source = done (target.splice first source (fits.trans_le inside)) := by
  have ordered : first ≤ last := by omega
  have length : source.length = last - first := by omega
  rw [copy, dif_pos ⟨ordered, inside⟩, dif_pos length]

lemma add_eq {limit a b : ℕ} (fits : a + b < limit) : add limit a b = done (a + b) := if_pos fits

lemma sub_eq {a b : ℕ} (smaller : b ≤ a) : sub a b = done (a - b) := if_pos smaller

/-! ## What is left without guards -/

/-- The rest of a run after a computation; a trap is a crash. -/
def andThen : Guarded α → (α → Program Unit) → Program Unit
  | done value, rest => rest value
  | fail status, _ => .finish () (Result.failure status).encode
  | trap _, _ => .crash () none
  | pass _ further, rest => further.andThen rest
  | ask query after, rest => .ask query fun answer => (after answer).andThen rest
  | call message after, rest => .call () message fun _ reply => (after reply).andThen rest

section AndThen

variable (computation : Guarded α) (next : α → Guarded β) (rest : β → Program Unit)

lemma andThen_bind :
    (computation >>= next).andThen rest
      = computation.andThen fun value => (next value).andThen rest := by
  change (computation.bind next).andThen rest = _
  induction computation with
  | done value => rfl
  | fail status => rfl
  | trap reason => rfl
  | pass state further ih => exact ih
  | ask query after ih => exact congrArg (Program.ask query) (funext ih)
  | call message after ih =>
      exact congrArg (Program.call () message) (funext fun _ => funext ih)

end AndThen

/-! ## Properties that are kept -/

/-- However the host answers, no guard fails. -/
def Safe : Guarded α → Prop
  | done _ => True
  | fail _ => True
  | trap _ => False
  | pass _ rest => rest.Safe
  | ask _ after => ∀ answer, (after answer).Safe
  | call _ after => ∀ reply, (after reply).Safe

/-- There is no trap, however the host answers, and every state on the way is within bounds and has
at least as much memory as the one before.  The run fails with an internal error only if some
balance was overlong.  Where the computation is done, its value is good for the last state and for
what is known of balances. -/
def Kept (good : State → Prop → α → Prop) : Guarded α → State → Prop → Prop
  | done value, current, overlong => good current overlong value
  | fail status, _, overlong => status = .internalError → overlong
  | trap _, _, _ => False
  | pass state rest, current, overlong =>
    state.Bounded ∧ current.memory.size ≤ state.memory.size ∧ rest.Kept good state overlong
  | ask query after, current, overlong =>
    ∀ answer, (after answer).Kept good current (overlong ∨ query.Overlong answer)
  | call _ after, current, overlong => ∀ reply, (after reply).Kept good current overlong

section Kept

variable {good : State → Prop → α → Prop} {better : State → Prop → β → Prop}
  {computation : Guarded α} {current : State} {overlong : Prop}

/-- What follows a computation starts from what the computation has arrived at. -/
lemma Kept.bind {next : α → Guarded β} (first : computation.Kept good current overlong)
    (second : ∀ current overlong value, good current overlong value →
      (next value).Kept better current overlong) :
    (computation >>= next).Kept better current overlong := by
  change (computation.bind next).Kept better current overlong
  induction computation generalizing current overlong with
  | done value => exact second current overlong value first
  | fail status => exact first
  | trap reason => exact first
  | pass state rest ih => exact ⟨first.1, first.2.1, ih first.2.2⟩
  | ask query after ih => exact fun answer => ih answer (first answer)
  | call message after ih => exact fun reply => ih reply (first reply)

lemma Kept.safe (kept : computation.Kept good current overlong) : computation.Safe := by
  induction computation generalizing current overlong with
  | done value => trivial
  | fail status => trivial
  | trap reason => exact kept
  | pass state rest ih => exact ih kept.2.2
  | ask query after ih => exact fun answer => ih answer (kept answer)
  | call message after ih => exact fun reply => ih reply (kept reply)

/-- Only what a computation can arrive at matters to the rest of a run. -/
lemma Kept.andThen_congr {rest rest' : α → Program Unit}
    (kept : computation.Kept good current overlong)
    (same : ∀ current overlong value, good current overlong value → rest value = rest' value) :
    computation.andThen rest = computation.andThen rest' := by
  induction computation generalizing current overlong with
  | done value => exact same current overlong value kept
  | fail status => rfl
  | trap reason => rfl
  | pass state further ih => exact ih kept.2.2
  | ask query after ih =>
      refine congrArg (Program.ask query) ?_
      funext answer
      exact ih answer (kept answer)
  | call message after ih =>
      refine congrArg (Program.call () message) ?_
      funext _ reply
      exact ih reply (kept reply)

end Kept

/-! ## A computation with a host -/

/-- The states that the machine passes through. -/
def states (host : Handler Unit ω) : Guarded α → ω → List State
  | done _, _ => []
  | fail _, _ => []
  | trap _, _ => []
  | pass state rest, world => state :: rest.states host world
  | ask query after, world =>
    let (answer, world) := host.answer world query
    (after answer).states host world
  | call message after, world =>
    let (reply, _, world) := host.call () world message
    (after reply).states host world

/-- **What is kept holds of every state** that the machine passes through. -/
theorem Kept.states {good : State → Prop → α → Prop} (host : Handler Unit ω)
    {computation : Guarded α} {current : State} {overlong : Prop}
    (kept : computation.Kept good current overlong) (world : ω) :
    (∀ state ∈ computation.states host world,
      state.Bounded ∧ current.memory.size ≤ state.memory.size) ∧
    (computation.states host world).Pairwise fun earlier later =>
      earlier.memory.size ≤ later.memory.size := by
  induction computation generalizing current overlong world with
  | done value => exact ⟨List.forall_mem_nil _, .nil⟩
  | fail status => exact ⟨List.forall_mem_nil _, .nil⟩
  | trap reason => exact False.elim kept
  | ask query after ih => exact ih _ (kept _) _
  | call message after ih => exact ih _ (kept _) _
  | pass state rest ih =>
      obtain ⟨bounded, grown, kept⟩ := kept
      obtain ⟨along, increasing⟩ := ih kept world
      refine ⟨List.forall_mem_cons.2 ⟨⟨bounded, grown⟩, ?_⟩, .cons ?_ increasing⟩
      · intro later member
        exact ⟨(along later member).1, grown.trans (along later member).2⟩
      · intro later member
        exact (along later member).2

/-- **What is kept shows in how the run ends:** with a result, which tells of an internal error only
for a reason. -/
theorem Kept.ended (host : Handler Unit ω) {computation : Guarded Result} {current : State}
    {overlong : Prop}
    (kept : computation.Kept (fun _ overlong result => result.status = .internalError → overlong)
      current overlong) (world : ω) :
    let program := computation.andThen fun result => .finish () result.encode
    ∃ result : Result, (program.run host world).1 = .finished result.encode ∧
      (result.status = .internalError → overlong ∨ ∃ address answer,
        Event.answered (.balance address) answer ∈ program.events host world ∧
          32 < answer.length) := by
  induction computation generalizing current overlong world with
  | done result => exact ⟨result, rfl, fun internal => .inl (kept internal)⟩
  | fail status => exact ⟨Result.failure status, rfl, fun internal => .inl (kept internal)⟩
  | trap reason => exact False.elim kept
  | pass state rest ih => exact ih kept.2.2 world
  | ask query after ih =>
      obtain ⟨result, ended, internal⟩ := ih _ (kept _) _
      refine ⟨result, ended, fun status => ?_⟩
      rcases internal status with (before | here) | ⟨address, answer, listed, long⟩
      · exact .inl before
      · cases query with
        | balance address => exact .inr ⟨address, _, List.mem_cons_self, here⟩
        | _ => exact False.elim here
      · exact .inr ⟨address, answer, List.mem_cons_of_mem _ listed, long⟩
  | call message after ih =>
      obtain ⟨result, ended, internal⟩ := ih _ (kept _) _
      refine ⟨result, ended, fun status => ?_⟩
      rcases internal status with before | ⟨address, answer, listed, long⟩
      · exact .inl before
      · refine .inr ⟨address, answer, ?_, long⟩
        exact List.mem_cons_of_mem _ (List.mem_cons_of_mem _ listed)

end Guarded

end Machine

end ContractHost
