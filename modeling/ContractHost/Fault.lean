import ContractHost.CallKind
import ContractHost.Status

/-!
# Faults of the boundary

A fault is a failure of the boundary between host and engine, not an outcome of a contract: a
revert or an exhausted gas supply is an ordinary `Status`.  Faults are values that name their
cause; `Fault.message` is the one place that words them, and `Fault.status` says with which status
a call is answered when a fault ends it.
-/

namespace ContractHost

/-- What an engine did that the boundary does not allow. -/
inductive Violation where
  /-- A log with more topics than a log may have. -/
  | tooManyTopics (count limit : Nat)
  /-- A call with more input than a message can describe. -/
  | inputTooLong (size : Nat)
  | other (description : String)
deriving DecidableEq

/-- What is wrong with the settings of a host. -/
inductive SettingsProblem where
  /-- No frame at all could run. -/
  | noDepth
  | unknownRevisionName (name : String)
  | notSettings
  /-- The file cannot be read as text. -/
  | unreadable (path : String)
  | other (description : String)
deriving DecidableEq

/-- Why the boundary failed. -/
inductive Fault where
  /-- A byte string is too short, or refers to bytes outside itself. -/
  | malformed (what : String) (expected actual : Nat)
  | unknownStatus (number : Int32)
  | unknownCallKind (number : Int32)
  | unknownRevision (number : Int32)
  /-- A frame would lie deeper than allowed. -/
  | depthExceeded (depth limit : UInt32)
  /-- The engine broke a rule of the host's interface. -/
  | violation (cause : Violation)
  /-- The engine died in the middle of a run; the reason is there if it gave one in words. -/
  | engineCrashed (reason : Option String)
  /-- The host cannot be set up as asked. -/
  | settings (problem : SettingsProblem)
deriving DecidableEq

def Violation.message : Violation → String
  | tooManyTopics count limit =>
    "log with " ++ toString count ++ " topics, at most " ++ toString limit ++ " allowed"
  | inputTooLong size => "call input of " ++ toString size ++ " bytes does not fit the message"
  | other description => description

def SettingsProblem.message : SettingsProblem → String
  | noDepth => "max_call_depth must allow at least the root frame"
  | unknownRevisionName name => "unknown revision name '" ++ name ++ "'"
  | notSettings => "not a settings document"
  | unreadable path => path ++ ": cannot be read as text"
  | other description => description

namespace Fault

def message : Fault → String
  | malformed what expected actual =>
    "malformed " ++ what ++ ": need " ++ toString expected ++ " bytes, got " ++ toString actual
  | unknownStatus number => "unknown status code " ++ toString number
  | unknownCallKind number => "unknown call kind " ++ toString number
  | unknownRevision number => "unknown revision " ++ toString number
  | depthExceeded depth limit =>
    "call depth " ++ toString depth ++ " exceeds the maximum of " ++ toString limit
  | violation cause => "capability violation: " ++ cause.message
  | engineCrashed reason => "vm panicked: " ++ reason.getD "unknown panic payload"
  | settings problem => "invalid configuration: " ++ problem.message

/-- The status a caller sees when this fault ends its call. -/
def status : Fault → Status
  | depthExceeded .. => .callDepthExceeded
  | _ => .internalError

end Fault

/-! ## Numbers that must be known -/

/-- The status with a number; an unknown number is a fault and never a default. -/
def Status.ofNumber (number : Int32) : Except Fault Status :=
  match ofNumber? number with
  | some status => .ok status
  | none => .error (.unknownStatus number)

/-- The kind of call with a number; an unknown number is a fault. -/
def CallKind.ofNumber (number : Int32) : Except Fault CallKind :=
  match ofNumber? number with
  | some kind => .ok kind
  | none => .error (.unknownCallKind number)

end ContractHost
