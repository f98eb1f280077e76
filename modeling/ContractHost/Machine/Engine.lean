import ContractHost.Machine.Step

/-!
# The machine as an engine

The machine runs code from its first byte on, without jumps, and every instruction costs one unit
of gas.  The run ends when an instruction ends it, when there is no gas for the next instruction,
or when the code is over, which is a success.  Gas is a signed number of 64 bits; from the smallest
one nothing can be taken away, and a machine that is to do so dies.  It dies of the check that a
debug build makes of every subtraction.  A release build makes none: there the number would wrap
around to the largest one, and the run would go on.

Every instruction takes at least one byte, so a run of `code.size` instructions cannot leave code
over: that many is the limit with which `run` starts.
-/

namespace ContractHost.Machine

/-- The rest of a run, after what an instruction does. -/
def Step.andThen : Step → (State → Program Unit) → Program Unit
  | next state, rest => rest state
  | halt result, _ => .finish () result.encode
  | ask query after, rest => .ask query fun answer => (after answer).andThen rest
  | call message after, rest => .call () message fun _ reply => (after reply).andThen rest

/-- Runs at most `limit` instructions from a place in the code on.  The crash at the smallest gas is
that of a debug build; in a release build the gas wraps around instead. -/
def run (setting : Setting) (code : Array UInt8) :
    (limit place : Nat) → State → Program Unit
  | 0, _, state => .finish () (Result.success state.gasLeft).encode
  | limit + 1, place, state =>
    if inside : place < code.size then
      if state.gasLeft = Int64.minValue then .crash () (some "attempt to subtract with overflow")
      else if state.gasLeft - 1 < 0 then .finish () (Result.failure .outOfGas).encode
      else
        let (instruction, width) := Instruction.fetch code place inside
        let charged := { state with gasLeft := state.gasLeft - 1 }
        (execute setting charged instruction).andThen fun state =>
          run setting code limit (place + width) state
    else .finish () (Result.success state.gasLeft).encode

/-- The run on a packed message; one that cannot be unpacked is an internal error. -/
def start (revision : Revision) (message code : Bytes) : Program Unit :=
  match CallMessage.unpack message with
  | .ok (message, input) =>
    run { revision, message, input } code.toArray code.length 0 { gasLeft := message.gas }
  | .error _ => .finish () (Result.failure .internalError).encode

/-- The machine as an engine. -/
def engine : Engine Unit where
  name := "example_vm"
  version := "0.1.0"
  start _ := start

end ContractHost.Machine
