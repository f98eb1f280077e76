import ContractHost.CommandLine.Run

/-!
# The program

Reads the settings document that the arguments name, if any, and prints the report.
-/

/-- The contents of a file, or `none` if it cannot be read. -/
def readContents (path : String) : IO (Option ContractHost.Bytes) := do
  try
    return some (← IO.FS.readBinFile path).data.toList
  catch _ =>
    return none

/-- Runs code from the command line. -/
def main (arguments : List String) : IO UInt32 := do
  let path := (ContractHost.CommandLine.Options.parse arguments).bind (·.config)
  let contents ←
    match path with
    | some path => readContents path
    | none => pure none
  let report := ContractHost.CommandLine.run arguments fun _ => contents
  IO.print report.output
  IO.eprint report.errors
  return report.exitCode
