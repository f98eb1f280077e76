import ContractHost.Revision

/-!
# Settings of a host

A host runs contracts under one revision and lets calls nest to a fixed depth.  Settings that
would not let even the root frame run are refused by `Settings.validate`.
-/

namespace ContractHost

/-- The settings of a host. -/
structure Settings where
  /-- Frames at this depth or deeper do not run. -/
  maxCallDepth : UInt32 := 1024
  /-- The rules that contracts run under. -/
  revision : Revision := .byzantium
deriving DecidableEq

namespace Settings

/-- The largest code that is accepted for a run, in bytes. -/
def codeSizeLimit : Nat := 24576

/-- The settings, if the root frame can run under them. -/
def validate (settings : Settings) : Except Fault Settings :=
  if settings.maxCallDepth = 0 then .error (.settings .noDepth) else .ok settings

end Settings

end ContractHost
