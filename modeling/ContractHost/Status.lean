/-!
# How an execution ends

`Status` lists the ways in which the run of a contract can end.  Each has a number, by which it
travels in a reply: the ordinary outcomes count up from zero, the ones that concern the engine
itself count down from minus one.  `Status.ofNumber?` is the inverse of `Status.number`.
-/

namespace ContractHost

inductive Status where
  | success
  | failure
  | revert
  | outOfGas
  | invalidInstruction
  | undefinedInstruction
  | stackOverflow
  | stackUnderflow
  | badJumpDestination
  | invalidMemoryAccess
  | callDepthExceeded
  | staticModeViolation
  | precompileFailure
  | contractValidationFailure
  | argumentOutOfRange
  | wasmUnreachableInstruction
  | wasmTrap
  | internalError
  | rejected
  | outOfMemory
deriving DecidableEq

namespace Status

/-- All statuses, the ordinary ones first. -/
def all : List Status :=
  [success, failure, revert, outOfGas, invalidInstruction, undefinedInstruction, stackOverflow,
    stackUnderflow, badJumpDestination, invalidMemoryAccess, callDepthExceeded,
    staticModeViolation, precompileFailure, contractValidationFailure, argumentOutOfRange,
    wasmUnreachableInstruction, wasmTrap, internalError, rejected, outOfMemory]

/-- The number by which the status travels. -/
def number : Status → Int32
  | success => 0
  | failure => 1
  | revert => 2
  | outOfGas => 3
  | invalidInstruction => 4
  | undefinedInstruction => 5
  | stackOverflow => 6
  | stackUnderflow => 7
  | badJumpDestination => 8
  | invalidMemoryAccess => 9
  | callDepthExceeded => 10
  | staticModeViolation => 11
  | precompileFailure => 12
  | contractValidationFailure => 13
  | argumentOutOfRange => 14
  | wasmUnreachableInstruction => 15
  | wasmTrap => 16
  | internalError => -1
  | rejected => -2
  | outOfMemory => -3

/-- The status with a number, if there is one. -/
def ofNumber? (number : Int32) : Option Status :=
  all.find? fun status => status.number == number

def name : Status → String
  | success => "Success"
  | failure => "Failure"
  | revert => "Revert"
  | outOfGas => "OutOfGas"
  | invalidInstruction => "InvalidInstruction"
  | undefinedInstruction => "UndefinedInstruction"
  | stackOverflow => "StackOverflow"
  | stackUnderflow => "StackUnderflow"
  | badJumpDestination => "BadJumpDestination"
  | invalidMemoryAccess => "InvalidMemoryAccess"
  | callDepthExceeded => "CallDepthExceeded"
  | staticModeViolation => "StaticModeViolation"
  | precompileFailure => "PrecompileFailure"
  | contractValidationFailure => "ContractValidationFailure"
  | argumentOutOfRange => "ArgumentOutOfRange"
  | wasmUnreachableInstruction => "WasmUnreachableInstruction"
  | wasmTrap => "WasmTrap"
  | internalError => "InternalError"
  | rejected => "Rejected"
  | outOfMemory => "OutOfMemory"

/-- The execution did what it was asked to; only then are its changes kept. -/
def isSuccess (status : Status) : Bool := status == success

/-- The status as reports show it: its name, and its number in brackets. -/
instance : ToString Status where
  toString status := status.name ++ " (" ++ toString status.number ++ ")"

end Status

end ContractHost
