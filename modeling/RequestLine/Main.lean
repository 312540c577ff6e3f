import RequestLine.CommandLine.Report

/-!
# The program

Reads the command line, the environment and the files that the command line names, and prints the
report. No transport is linked, so every request fails after its statement has been judged.
-/

open RequestLine RequestLine.CommandLine

/-- What stands at the paths that lead anywhere. -/
def readTargets (paths : List Text) : IO (List (Text × PathTarget)) :=
  paths.filterMapM fun path => do
    try
      let bytes ← IO.FS.readBinFile path.toString
      return some (path, .file bytes.toList)
    catch e =>
      match e with
      | .inappropriateType .. => return some (path, .directory)
      | _ => return none

/-- The text of a variable of the environment. -/
def environmentText (name : String) : IO (Option Text) := do
  return (← IO.getEnv name).map Text.ofString

/-- How the program is used. -/
def usage : String :=
  "Usage: [-v] parse STATEMENT [--format FORMAT]\n" ++
  "       [-v] run [STATEMENT] [-f FILE] [--timeout SECONDS] [--[no-]raise-for-status]\n" ++
  "                [--format FORMAT]\n" ++
  "Formats: json, yaml"

/-- Runs a command line. -/
def main (args : List String) : IO UInt32 := do
  let args := args.map Text.ofString
  let targets ← readTargets (Invocation.paths args)
  let env : Environment := {
    timeout := ← environmentText "REQLINE_TIMEOUT"
    raiseForStatus := ← environmentText "REQLINE_RAISE_FOR_STATUS"
    target? := fun path => targets.lookup path
    setOrder := .written }
  let outcome := Outcome.failed "No transport is available."
  let now := (← IO.monoMsNow) / 1000
  let report := Report.ofArguments env args ⟨⟨outcome, []⟩, ⟨Double.ofInt now, []⟩⟩
  IO.print report.stdout.toString
  IO.eprint report.stderr.toString
  match report.ending with
  | .exit code => return UInt32.ofNat code
  | .usage requested =>
    if requested then IO.println usage else IO.eprintln usage
    return UInt32.ofNat (usageCode requested)
  | _ =>
    IO.eprintln "Error: the run was interrupted."
    return 1
