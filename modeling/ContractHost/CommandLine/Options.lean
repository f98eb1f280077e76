import ContractHost.Revision

/-!
# Options of the command line

The command line sets options and nothing else; it has no arguments that stand by themselves.  An
option is given at most once, as `-x value`, `-xvalue`, `-x=value`, `--name value` or
`--name=value`.  A value that is an argument of its own may not look like an option: only a single
hyphen may start it, and only if it is all there is.

`Options.parse` reads the arguments.  Whatever is wrong with them, the answer is the same: they
cannot be used.
-/

namespace ContractHost.CommandLine

/-- What the command line asks for. -/
structure Options where
  /-- The code in hexadecimal digits. -/
  code : String
  /-- The input in hexadecimal digits. -/
  input : String
  gas : Int64
  /-- The rules to use, whatever the settings say. -/
  revision : Option Revision
  /-- The code is run as that of a creation. -/
  create : Bool
  config : Option String
  blockNumber : Int64

inductive ValueOption where
  | code
  | input
  | gas
  | revision
  | config
  | blockNumber
deriving DecidableEq

namespace ValueOption

def ofName? : String → Option ValueOption
  | "code" => some code
  | "input" => some input
  | "gas" => some gas
  | "rev" => some revision
  | "config" => some config
  | "block-number" => some blockNumber
  | _ => none

def ofLetter? : Char → Option ValueOption
  | 'c' => some code
  | 'i' => some input
  | 'g' => some gas
  | 'r' => some revision
  | _ => none

end ValueOption

/-- The options as they are given, before any value is looked at. -/
structure Given where
  /-- The values that are given, each option at most once. -/
  values : List (ValueOption × String) := []
  create : Bool := false

namespace Given

/-- Adds the value of an option that was not given before. -/
def withValue? (given : Given) (option : ValueOption) (value : String) : Option Given :=
  if given.values.any fun entry => entry.1 == option then none
  else some { given with values := (option, value) :: given.values }

def value? (given : Given) (option : ValueOption) : Option String := given.values.lookup option

end Given

/-- What a single argument does. -/
inductive Argument where
  | create
  /-- It gives an option together with its value. -/
  | valued (option : ValueOption) (value : String)
  /-- It gives an option whose value is the next argument. -/
  | pending (option : ValueOption)
  | done
  | unknown

/-- What a long option does, given its name and its value behind an equals sign. -/
def Argument.ofLong (name : String) (value : Option String) : Argument :=
  if name = "create" then
    if value.isNone then .create else .unknown
  else
    match ValueOption.ofName? name, value with
    | some option, some value => .valued option value
    | some option, none => .pending option
    | none, _ => .unknown

def Argument.ofString (argument : String) : Argument :=
  match argument.toList with
  | ['-', '-'] => .done
  | '-' :: '-' :: rest =>
    let name := String.ofList (rest.takeWhile (· ≠ '='))
    match rest.dropWhile (· ≠ '=') with
    | _ :: value => ofLong name (some (String.ofList value))
    | [] => ofLong name none
  | '-' :: letter :: rest =>
    match ValueOption.ofLetter? letter, rest with
    | none, _ => .unknown
    | some option, [] => .pending option
    | some option, '=' :: value => .valued option (String.ofList value)
    | some option, value => .valued option (String.ofList value)
  | _ => .unknown

/-- An argument can be the value of the option before it. -/
def canBeValue (argument : String) : Bool :=
  match argument.toList with
  | '-' :: _ :: _ => false
  | _ => true

/-- Collects what the arguments give. -/
def collect (given : Given) : List String → Option Given
  | [] => some given
  | argument :: rest =>
    match Argument.ofString argument with
    | .create => if given.create then none else collect { given with create := true } rest
    | .valued option value => do collect (← given.withValue? option value) rest
    | .pending option =>
      match rest with
      | value :: rest =>
        if canBeValue value then do collect (← given.withValue? option value) rest else none
      | [] => none
    | .done => if rest.isEmpty then some given else none
    | .unknown => none

/-- Reads an integer option, which has a default. -/
def integerOption (given : Given) (option : ValueOption) (default : Int64) : Option Int64 :=
  match given.value? option with
  | some text => Text.int64? text
  | none => some default

/-- Reads the revision, which may be missing. -/
def revisionOption (given : Given) : Option (Option Revision) :=
  match given.value? .revision with
  | some text => (Revision.parse text).toOption.map some
  | none => some none

/-- Reads the path of the settings document, which may be missing but not empty. -/
def configOption (given : Given) : Option (Option String) :=
  match given.value? .config with
  | some path => if path.isEmpty then none else some (some path)
  | none => some none

/-- The options that the arguments give.  Only the code has no default. -/
def Options.parse (arguments : List String) : Option Options := do
  let given ← collect {} arguments
  let code ← given.value? .code
  let gas ← integerOption given .gas 1000000
  let revision ← revisionOption given
  let config ← configOption given
  let blockNumber ← integerOption given .blockNumber 0
  return {
    code
    input := (given.value? .input).getD ""
    gas
    revision
    create := given.create
    config
    blockNumber }

end ContractHost.CommandLine
