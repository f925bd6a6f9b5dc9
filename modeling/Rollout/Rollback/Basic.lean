import Rollout.History.View
import Rollout.Json.Equality
import Rollout.Rollback.Watch

/-!
# Rolling back

A workload is put back to a recorded revision as a whole or not at all. For
daemon sets and stateful sets the recorded patch is first applied to a copy
of the live object, and only if that changes the template is the same patch
sent. Deployments are rolled back by the cluster, and the end is awaited.

A dry run ends where the first change would be made and shows the template
instead. Every way to end is counted and logged in one place (`rollBack`).
Who rolls back which kind is registered, and found by the kind or a spelling
of it (`rollbackerFor`).
-/

namespace Rollout
namespace Rollback

/-- What is asked for. -/
structure Order where
  /-- The revision to go back to, `Revision.previousTarget` for the one
  before the live one. -/
  target : Int
  dryRun : Bool
  /-- Annotations for the cluster to record with a deployment's rollback. -/
  annotations : Fields Json
  /-- The caller has given up already. -/
  cancelled : Bool
deriving Inhabited, Repr

/-- The preview of a deployment's rollback. A blank line marks that no
revision was named. -/
def previewDeployment (w : Workload) (target : Int) : Backend.Talk Ending := do
  let children := Revision.byNumber (← History.resolveReplicaSets w)
  if children.length < 2 then
    Program.fail (.noRolloutHistory .deployment w.name)
  else
    let child ← Revision.select children target
    let rendered ← Template.describe child.template
    return .previewed (if target = Revision.previousTarget then "\n" ++ rendered else rendered)

/-- A deployment's rollback, handed to the cluster and awaited. -/
def submit (w : Workload) (order : Order) : Backend.Talk Ending := do
  let watermark ← Backend.eventWatermark w.space
  Backend.rollBackDeployment w.space w.name order.target order.annotations
  Program.log "rollback.deployment" "rollback_submitted" .info [
    ("workload", .str w.ref),
    ("namespace", .str w.space),
    ("to_revision", .int order.target),
    ("watermark", .str watermark)]
  let script ← Backend.watchEvents w.space watermark
  awaitEnding order.cancelled script

/-- **The rollback of a deployment.** -/
def rollBackDeployment (w : Workload) (order : Order) : Backend.Talk Ending := do
  let paused ← w.paused
  if paused then Program.fail (.paused .deployment w.name)
  else if order.dryRun then previewDeployment w order.target
  else submit w order

/-- The snapshot's patch sent to the live object; a failure of the cluster is
told as one of the restoring. -/
def restore (kind : Kind) (live : Workload) (s : Snapshot) : Backend.Talk Ending :=
  (Backend.patchWorkload kind live.space live.name s.data).attempt fun r =>
    match r with
    | .ok _ => do
      Program.log "rollback.revision" "rollback_patched" .info [
        ("workload", .str live.ref),
        ("revision", .int s.revision),
        ("snapshot", .str s.name)]
      return .succeeded
    | .error (.rollout (.backend e)) => Program.fail (.backend (.restoring s.revision e))
    | .error e => .done (.error e)

/-- A rollback to the template that is live already. -/
def skip (live : Workload) (s : Snapshot) : Backend.Talk Ending := do
  Program.log "rollback.revision" "rollback_skipped" .info [
    ("workload", .str live.ref),
    ("revision", .int s.revision)]
  return .skipped ("current template already matches revision " ++ .ofInt s.revision)

/-- **The rollback of a workload with snapshots.** -/
def rollBackSnapshots (kind : Kind) (w : Workload) (order : Order) : Backend.Talk Ending := do
  if order.target < 0 then Program.fail (.revisionNotFound order.target)
  else
    let (live, history) ← History.resolve kind w.space w.name
    if order.target = Revision.previousTarget ∧ history.length ≤ 1 then
      Program.fail .insufficientHistory
    else
      let snapshot ← Revision.select history order.target
      let applied ← live.atRevision snapshot
      let template ← applied.template
      if order.dryRun then
        let rendered ← Template.describe template
        return .previewed ("will roll back to " ++ rendered)
      else
        let current ← live.template
        if template.eqv current then skip live snapshot else restore kind live snapshot

/-- The rollback of a workload of the kind. -/
def rollBackKind (kind : Kind) (w : Workload) (order : Order) : Backend.Talk Ending :=
  match kind with
  | .deployment => rollBackDeployment w order
  | .daemonSet => rollBackSnapshots .daemonSet w order
  | .statefulSet => rollBackSnapshots .statefulSet w order

/-- What every line about a rollback says of it. -/
def orderFields (w : Workload) (order : Order) : Fields Json := [
  ("workload", .str w.ref),
  ("namespace", .str w.space),
  ("to_revision", .int order.target),
  ("dry_run", .bool order.dryRun)]

/-- What a line says of how a rollback ended. -/
def endingFields (ending : Ending) : Fields Json := [("status", .str ending.status)]

/-- **A rollback** by what rolls back workloads of the kind. How it ends is
counted and logged; a malformed value ends it without either. -/
def rollBack (kind : Kind) (w : Workload) (order : Order) : Backend.Talk Ending :=
  if w.kind ≠ kind then Program.fail (.otherKind kind w.kind)
  else (rollBackKind kind w order).attempt fun r =>
    match r with
    | .ok ending => do
      Program.count (.rollbacks kind ending.status)
      Program.log "rollback" "rollback_finished" .info
        (orderFields w order ++ endingFields ending)
      return ending
    | .error (.rollout e) => do
      Program.count (.rollbacks kind "error")
      Program.log "rollback" "rollback_failed" .warning
        (orderFields w order ++ e.fields)
      Program.fail e
    | .error .malformed => .done (.error .malformed)

/-- **What rolls back workloads of one kind.** -/
structure Rollbacker where
  kind : Kind
  rollBack : Workload → Order → Backend.Talk Ending

/-- What rolls back workloads of the kind. -/
def Rollbacker.ofKind (kind : Kind) : Rollbacker := ⟨kind, Rollback.rollBack kind⟩

/-- Who rolls back what. -/
def rollbackers : List (Kind × Rollbacker) := [
  (.deployment, .ofKind .deployment),
  (.daemonSet, .ofKind .daemonSet),
  (.statefulSet, .ofKind .statefulSet)]

/-- **The rollbacker for a kind.** -/
def rollbackerFor (kind : Kind.Designation) : Outcome Rollbacker :=
  registered .rollback rollbackers kind

/-- **Whoever rolls back a kind is found by it.** -/
@[simp] theorem rollbackerFor_kind (k : Kind) : rollbackerFor (.kind k) = .ok (.ofKind k) := by
  cases k <;> rfl

end Rollback
end Rollout
