/-!
# Kinds of calls

A call either runs the code of the account it is addressed to, or, for the two creating kinds, the
bytes it was sent as input.
-/

namespace ContractHost

inductive CallKind where
  | call
  | delegateCall
  | callCode
  | create
  | create2
deriving DecidableEq

namespace CallKind

/-- The number by which the kind travels. -/
def number : CallKind → Int32
  | call => 0
  | delegateCall => 1
  | callCode => 2
  | create => 3
  | create2 => 4

/-- The kind with a number, if there is one. -/
def ofNumber? (number : Int32) : Option CallKind :=
  [call, delegateCall, callCode, create, create2].find? fun kind => kind.number == number

def name : CallKind → String
  | call => "Call"
  | delegateCall => "DelegateCall"
  | callCode => "CallCode"
  | create => "Create"
  | create2 => "Create2"

/-- The call runs its input as code. -/
def isCreate : CallKind → Bool
  | create | create2 => true
  | call | delegateCall | callCode => false

end CallKind

end ContractHost
