import ContractHost.Host.Call

/-!
# Executions

An execution runs a call at the root and reports what came of it: the result, the gas used, and
the changes, which the caller may then apply to the base store.

Faults in the middle of an execution do not end it, since the engine is only told that something
failed.  But the first of them is what the execution is answered with in the end, whatever the
engine made of it (`execute`).
-/

namespace ContractHost

/-- What came of a call at the root. -/
structure Execution where
  gasLimit : Int64
  result : Result
  /-- The changes, not yet applied to the store. -/
  diff : FrameDiff
deriving DecidableEq

namespace Execution

/-- The largest number of 64 signed bits. -/
def gasUsedLimit : Int := Int64.maxValue.toInt

/-- The gas that is gone: never negative, and never more than 64 signed bits can hold. -/
def gasUsed (execution : Execution) : Nat :=
  (min gasUsedLimit (execution.gasLimit.toInt - execution.result.gasLeft.toInt)).toNat

/-- The execution as reports show it: status, gas and changes. -/
instance : ToString Execution where
  toString execution :=
    "=== Execution ===\n" ++
      "Status: " ++ toString execution.result.status ++ "\n" ++
      "Gas used: " ++ toString execution.gasUsed ++ " of " ++ toString execution.gasLimit ++
      "\n" ++ toString execution.diff

end Execution

variable {σ τ : Type}

/-- Runs a message with its input at the root.  The answer is the first fault of the execution if
there was one, and otherwise what came of the root call. -/
def execute (engine : Engine σ) (watch : Observer τ) (state : σ) (world : World τ)
    (message : CallMessage) (input : Bytes) : Except Fault Execution × σ × World τ :=
  let world := { world with host := { world.host with fault := none } }
  let (outcome, state, world) := runMessage engine watch state world message input
  let answer : Except Fault Execution :=
    match world.host.fault, outcome with
    | some fault, _ => .error fault
    | none, .error fault => .error fault
    | none, .ok outcome => .ok ⟨message.gas, outcome.result, outcome.diff⟩
  (answer, state, { world with host := { world.host with fault := none } })

end ContractHost
