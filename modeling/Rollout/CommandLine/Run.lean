import Rollout.Api.Connection
import Rollout.CommandLine.Plan
import Rollout.Rollback.Basic
import Rollout.Text.Terminal

/-!
# Running a command line

A plan is carried out over the API. The result goes to the output, an error
to the error channel with exit code 1, wrong usage with exit code 2. Nothing
is asked of a cluster without a plan.
-/

namespace Rollout
namespace CommandLine

/-- **What a command line came to.** -/
structure Report where
  exitCode : Nat
  out : Text
  err : Text
  /-- How the log was set up. -/
  logging : List LogSetup
  /-- The fields that the invocation adds to each log line. -/
  bound : Fields Json
deriving Repr

/-- A text as it is printed: with a line end, and without what is meant for a
terminal. -/
def printed (text : Text) : Text :=
  lineEnds (plain (if text.getLast? = some '\n' then text else text ++ "\n"))

/-- A text as it goes to the error channel: what has no bytes is spelled
out. -/
def printedAsError (text : Text) : Text :=
  spelledOut (lineEnds (plain text))

/-- A message for the error channel, in a line of its own. -/
def printedLine (message : Text) : Text :=
  printedAsError (message ++ "\n")

/-- Text for the output and for the error channel. -/
structure Texts where
  out : Text
  err : Text

/-- What is said at the end of a rollback. -/
def endingTexts (plan : Plan) (ending : Ending) : Texts :=
  let ref := plan.kind.lowerName ++ "/" ++ plan.name
  match ending with
  | .previewed rendered => ⟨printed rendered, ""⟩
  | .unknown => ⟨"", printedLine (ref ++ ": rollback submitted, outcome unknown")⟩
  | _ => ⟨printed (ref ++ " " ++ ending.message), ""⟩

/-- The order that a plan's options make. -/
def orderOf (plan : Plan) (target : Int) (dryRun : Bool) (cause : Text) : Rollback.Order := {
  target := target
  dryRun := dryRun
  annotations := if cause = "" then [] else [(plan.config.causeKey, .str cause)]
  cancelled := false }

/-- **The task done.** -/
def carryOut (plan : Plan) : Backend.Talk Texts :=
  match plan.task with
  | .show revision => do
    let viewer ← History.viewerFor (.kind plan.kind) plan.config.causeKey
    let text ← viewer.view plan.space plan.name revision
    return ⟨printed text, ""⟩
  | .undo target dryRun cause => do
    let rollbacker ← Rollback.rollbackerFor (.kind plan.kind)
    let w ← Backend.getWorkload plan.kind plan.space plan.name
    let ending ← rollbacker.rollBack w (orderOf plan target dryRun cause)
    return endingTexts plan ending

/-- The fields of a plan's invocation. -/
def boundFields (plan : Plan) : Fields Json :=
  let command : Command :=
    match plan.task with
    | .show _ => .history
    | .undo .. => .undo
  [("command", .str command.name),
   ("kind", .str plan.kind.name),
   ("namespace", .str plan.space),
   ("name", .str plan.name)]

/-- **A plan carried out and reported.** A result that cannot be printed as it
is counts as malformed. -/
def execute (logging : List LogSetup) (plan : Plan) : Api.Talk Report :=
  (Api.connected plan.config.cluster (carryOut plan)).attempt fun r =>
    match r with
    | .ok texts =>
      if isPrintedAsItIs texts.out then
        return ⟨0, texts.out, texts.err, logging, boundFields plan⟩
      else .done (.error .malformed)
    | .error (.rollout e) => do
      Program.log "cli" "command_failed" .error e.fields
      return ⟨1, "", printedLine ("error: " ++ e.message), logging, boundFields plan⟩
    | .error .malformed => .done (.error .malformed)

/-- **A command line run.** -/
def run (env : Environment) (args : List Text) : Api.Talk Report :=
  let reading := read env args
  match reading.plan with
  | .ok plan => execute reading.logging plan
  | .error .help => return ⟨0, "", "", reading.logging, []⟩
  | .error (.usage e) => return ⟨2, "", printedAsError e.report, reading.logging, []⟩

end CommandLine
end Rollout
