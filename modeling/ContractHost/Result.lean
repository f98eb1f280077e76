import ContractHost.Wire

/-!
# Results and replies

The run of a contract ends with a status and the gas that is left.  The engine hands this result
back as a reply of 32 bytes: the status number at 0, the gas at 8, and zeros everywhere else.
Reading a reply looks at nothing else, so whatever an engine leaves in the other bytes is lost.
-/

namespace ContractHost

structure Result where
  status : Status
  gasLeft : Int64
deriving DecidableEq

/-- A result as the engine hands it back. -/
abbrev Reply := FixedBytes 32

namespace Result

def size : Nat := 32

/-- A run that did what it was asked to. -/
def success (gasLeft : Int64) : Result := ⟨.success, gasLeft⟩

/-- A run that undid its changes and gives back the rest of its gas. -/
def revert (gasLeft : Int64) : Result := ⟨.revert, gasLeft⟩

/-- A run that failed, which uses up all its gas. -/
def failure (status : Status) : Result := ⟨status, 0⟩

/-- The changes of the run are kept. -/
def isSuccess (result : Result) : Bool := result.status.isSuccess

def encode (result : Result) : Reply :=
  ⟨((Cursor.blank size)
    |>.write .int32 result.status.number
    |>.pad 4
    |>.write .int64 result.gasLeft
    |>.pad 16).buffer, by simp [size]⟩

def decode (buffer : Bytes) : Except Fault Result :=
  if buffer.length < size then .error (.malformed "execution result" size buffer.length)
  else do
    let (number, rest) ← (Cursor.start buffer).read .int32
    let (gasLeft, _) ← (rest.skip 4).read .int64
    let status ← Status.ofNumber number
    return { status, gasLeft }

end Result

end ContractHost
