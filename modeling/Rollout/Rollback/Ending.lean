import Rollout.Event.Basic
import Rollout.Note

/-!
# How a rollback ends

A rollback replaces the live template as a whole or leaves it alone; it was
skipped, only previewed, or its end is not known. For a deployment the
cluster tells the end by an event with one of three reasons
(`Ending.ofEvent?`).
-/

namespace Rollout

/-- **How a rollback ended.** -/
inductive Ending where
  /-- The template is the recorded one now. -/
  | succeeded
  /-- There was nothing to do. -/
  | skipped (detail : Text)
  /-- Nothing was changed; this is what would be. -/
  | previewed (rendered : Text)
  /-- It was submitted, and nobody has said how it went. -/
  | unknown
deriving DecidableEq, Repr, Inhabited

namespace Ending

/-- The word for it. -/
def status : Ending → Text
  | succeeded => "succeeded"
  | skipped _ => "skipped"
  | previewed _ => "previewed"
  | unknown => "unknown"

/-- What is said about it. -/
def message : Ending → Text
  | succeeded => "rolled back"
  | skipped detail => "skipped rollback (" ++ detail ++ ")"
  | previewed rendered => rendered
  | unknown => ""

/-- The reason of the event that tells of success. -/
def doneReason : Text := "DeploymentRollback"

/-- The reasons of the events that tell why nothing was done. -/
def skipReasons : List Text :=
  ["DeploymentRollbackRevisionNotFound", "DeploymentRollbackTemplateUnchanged"]

/-- **The end an event tells of**, if it is about the end of a rollback. -/
def ofEvent? (e : Event) : Option Ending :=
  if e.reason = doneReason then some succeeded
  else if skipReasons.contains e.reason then some (skipped (e.reason ++ ": " ++ e.message))
  else none

end Ending
end Rollout
