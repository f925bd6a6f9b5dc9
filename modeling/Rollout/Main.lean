import Rollout.Api.State
import Rollout.CommandLine.Run
import Rollout.Log

/-!
# The program

Runs a command line against a cluster in memory. The cluster's state is a
document on the standard input; an empty input is an empty cluster. Results
go to the standard output, errors and log lines to the standard error.
-/

open Rollout

/-- The settings' variables that are set. -/
def readEnvironment : IO Environment :=
  Config.variableNames.filterMapM fun name => do
    return (← IO.getEnv name.toString).map (fun value => (name, Text.ofString value))

/-- The log lines of a run, as far as they are written. -/
def logLines (report : CommandLine.Report) (notes : List Note) : List Text :=
  let level := report.logging.head?.elim Level.warning Prod.fst
  let logging := (Logging.atLevel level).bind report.bound
  notes.filterMap fun
    | .log entry =>
      match logging.write entry with
      | .ok (some fs) => some (Json.obj fs).compact
      | _ => none
    | .count _ => none

/-- The command line run against the cluster on the standard input. -/
def main (args : List String) : IO UInt32 := do
  let state ← (← IO.getStdin).readToEnd
  let environment ← readEnvironment
  let run? : Outcome (Program.Run Api.Call Api.Memory CommandLine.Report) := do
    let memory ← Api.Memory.ofJson ((Json.parse? state).getD .null)
    return memory.run (CommandLine.run environment (args.map Text.ofString))
  match run?.bind (fun run => run.result.map (fun report => (report, run.notes))) with
  | .ok (report, notes) =>
    for line in logLines report notes do IO.eprintln line.toString
    IO.eprint report.err.toString
    IO.print report.out.toString
    return UInt32.ofNat report.exitCode
  | .error _ =>
    IO.eprintln "the cluster holds a malformed object"
    return 1
