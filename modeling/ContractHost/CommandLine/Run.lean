import ContractHost.CommandLine.Options
import ContractHost.Host.Execution
import ContractHost.Host.SettingsJson
import ContractHost.Machine.Engine
import ContractHost.Text.Blank

/-!
# Running code from the command line

The program runs some code on the machine, in a world of two accounts: one that sends the call and
one that holds the code.  It prints the engine and its rules, how the run ended, and the report on
the execution.

What can go wrong is a `Failure`, in the order in which it is looked for: the settings cannot be
loaded, the code is no byte string or too long, the input is no byte string, or the execution is
ended by a fault.  The whole program is a function from the arguments and the files to what it
prints (`run`); reading files and printing is all that is left to do outside.
-/

namespace ContractHost.CommandLine

/-- The account that sends the call. -/
def sender : Address := ⟨List.replicate 20 0xaa, List.length_replicate⟩

/-- The account that holds the code. -/
def contract : Address := ⟨List.replicate 20 0xcc, List.length_replicate⟩

/-- Why the program fails. -/
inductive Failure where
  | settings (fault : Fault)
  /-- The value of an option is not the hexadecimal form of a byte string. -/
  | notHex (option : String) (reason : HexError)
  | codeTooLong (size : Nat)
  | execution (fault : Fault)

def Failure.message : Failure → String
  | settings fault => "failed to load host config: " ++ fault.message
  | notHex option reason => option ++ " is not valid hex: " ++ reason.message
  | codeTooLong size =>
    "code is " ++ toString size ++ " bytes, limit is " ++ toString Settings.codeSizeLimit
  | execution fault => "execution faulted: " ++ fault.message

/-- What the program prints, and its exit code. -/
structure Report where
  exitCode : UInt32
  output : String := ""
  errors : String := ""
deriving DecidableEq

def usageReport : Report where
  exitCode := 2
  errors := "usage: host-run --code HEX [--input HEX] [--gas N] [--rev REVISION] [--create] " ++
    "[--config FILE] [--block-number N]\n"

/-- The bytes of an option, given by hexadecimal digits.  White space around them and one mark
`0x` in front are dropped. -/
def hexOption (option value : String) : Except Failure Bytes :=
  match Hex.codec.decode (Hex.withoutMark (Text.trim value)) with
  | .ok bytes => .ok bytes
  | .error reason => .error (.notHex option reason)

def settingsOf (options : Options) (files : String → Option Bytes) : Except Failure Settings := do
  let settings ←
    match options.config with
    | none => pure {}
    | some path =>
      match Settings.ofFile path (files path) with
      | .ok settings => pure settings
      | .error fault => throw (.settings fault)
  return { settings with revision := options.revision.getD settings.revision }

structure Job where
  host : Host
  message : CallMessage
  input : Bytes

/-- What the options ask to run.  The code of a creation is its input; otherwise the contract holds
the code. -/
def jobOf (options : Options) (files : String → Option Bytes) : Except Failure Job := do
  let settings ← settingsOf options files
  let code ← hexOption "--code" options.code
  if Settings.codeSizeLimit < code.length then throw (.codeTooLong code.length)
  let input ← hexOption "--input" options.input
  let store := Store.empty.setBalance sender 1000000
  let call := CallMessage.plain sender contract options.gas
  let txContext : TxContext :=
    { origin := sender, blockNumber := options.blockNumber, gasLimit := options.gas }
  if options.create then
    return {
      host := { store, txContext, settings }
      message := { call with kind := .create }
      input := code }
  else
    return {
      host := { store := store.deploy contract code, txContext, settings }
      message := call
      input }

def Job.perform (job : Job) : Except Fault Execution :=
  (execute Machine.engine Observer.silent () ⟨job.host, ()⟩ job.message job.input).1

/-- The line that names the engine and its rules. -/
def engineLine (settings : Settings) : String :=
  Machine.engine.name ++ " " ++ Machine.engine.version ++ " (" ++ settings.revision.name ++ ")\n"

/-- The line that says how the run ended. -/
def statusLine (result : Result) : String :=
  (if result.isSuccess then "✔ " else "✘ ") ++ toString result.status ++ "\n"

/-- The report on a failure, after what was printed before it. -/
def failureReport (output : String) (failure : Failure) : Report where
  exitCode := 1
  output := output
  errors := "Error: " ++ failure.message ++ "\n"

/-- The whole program: what it prints for its arguments, given the contents of files. -/
def run (arguments : List String) (files : String → Option Bytes) : Report :=
  match Options.parse arguments with
  | none => usageReport
  | some options =>
    match jobOf options files with
    | .error failure => failureReport "" failure
    | .ok job =>
      let heading := engineLine job.host.settings
      match job.perform with
      | .error fault => failureReport heading (.execution fault)
      | .ok execution =>
        { exitCode := 0
          output := heading ++ statusLine execution.result ++ toString execution ++ "\n" }

end ContractHost.CommandLine
