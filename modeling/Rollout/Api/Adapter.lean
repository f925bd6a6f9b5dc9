import Rollout.Api.Feed
import Rollout.Backend

/-!
# The core's requests as calls

Each request of the core is at most one call to the API. A refusal with
status 404 of a call about a workload means that the workload does not
exist; every other refusal is told with its status and reason. Opening a
watch and stopping it are not expected to be refused, and nothing can be said
when they are. Objects that come back are turned into the library's types
here.
-/

namespace Rollout
namespace Api

/-- What can be said of a call that is not expected to be refused. -/
def unexpected : CallError → Failure
  | .unreachable reason => .rollout (.backend (.configuration reason))
  | .refused .. => .malformed
  | .malformed => .malformed

/-- A refusal told as a failure of what was asked. -/
def failure (action : Action) : CallError → Failure
  | .refused status reason => .rollout (.backend (.refused action status reason))
  | e => unexpected e

/-- The answer to a call that is not expected to be refused. -/
def expected {α : Type} : Except CallError α → Outcome α
  | .ok a => .ok a
  | .error e => .error (unexpected e)

/-- The server says that what a call is about does not exist. -/
def isAbsence : CallError → Bool
  | .refused status _ => status.eqv (.int 404)
  | _ => false

/-- A refusal of a call about a workload. -/
def workloadFailure (action : Action) (kind : Kind) (space name : Text) (e : CallError) :
    Failure :=
  if isAbsence e then .rollout (.notFound kind space name) else failure action e

/-- The fields of an object with its kind among them. -/
def withKind (kind : Kind) (raw : Fields Json) : Fields Json :=
  if Fields.has raw "kind" then raw else Fields.set raw "kind" (.str kind.name)

/-- The workload that was read. -/
def workloadRead (kind : Kind) (space name : Text) :
    Except CallError Json → Outcome Workload
  | .ok j => do
    let raw ← j.fields
    Workload.ofFields kind (withKind kind raw)
  | .error e => .error (workloadFailure (.retrieve kind space name) kind space name e)

/-- The workload that a patch left. -/
def workloadPatched (kind : Kind) (space name : Text) :
    Except CallError Json → Outcome Workload
  | .ok j => do
    let raw ← j.fields
    Workload.ofFields kind raw
  | .error e => .error (workloadFailure (.patch kind space name) kind space name e)

/-- The snapshots that were listed. -/
def snapshotsListed (space : Text) : Except CallError (List Json) → Outcome (List Snapshot)
  | .ok items => items.mapM Snapshot.ofJson
  | .error e => .error (failure (.listRevisions space) e)

/-- The replica sets that were listed; those without a number are left
out. -/
def replicaSetsListed (space : Text) :
    Except CallError (List Json) → Outcome (List ReplicaSet)
  | .ok items => do
    let children ← items.mapM ReplicaSet.ofJson
    return children.filterMap id
  | .error e => .error (failure (.listReplicaSets space) e)

/-- The version of the list of events as a watermark. -/
def watermarkListed (space : Text) : Except CallError Json → Outcome Text
  | .ok version => .ok (if version.truthy then version.text else "")
  | .error e => .error (failure (.listEvents space) e)

/-- Where a deployment's rollback is posted. -/
def rollbackPath (space name : Text) : Text :=
  "/apis/extensions/v1beta1/namespaces/" ++ space ++ "/deployments/" ++ name ++ "/rollback"

/-- What is posted. -/
def rollbackBody (name : Text) (revision : Int) (annotations : Fields Json) : Json :=
  .obj [
    ("apiVersion", .str "extensions/v1beta1"),
    ("kind", .str "DeploymentRollback"),
    ("name", .str name),
    ("updatedAnnotations", .obj annotations),
    ("rollbackTo", .obj [("revision", .int revision)])]

/-- The answer to a posted rollback. -/
def rollbackPosted (space name : Text) : Except CallError Unit → Outcome Unit
  | .ok () => .ok ()
  | .error e =>
    .error (workloadFailure (.rollBack space name) .deployment space name e)

/-- The call that opens a watch after a watermark; the empty one is none. -/
def watchAfter (timeoutSeconds : Int) (space watermark : Text) : Call :=
  .watch space (if watermark = "" then none else some watermark) timeoutSeconds

/-- **The core's requests answered by calls.** -/
def answer (timeoutSeconds : Int) : (q : Backend.Request) → Talk q.Answer
  | .getWorkload kind space name =>
    .ask (.read kind space name) fun a => .done (.ok (workloadRead kind space name a))
  | .listSnapshots space query =>
    .ask (.listRevisions space query) fun a => .done (.ok (snapshotsListed space a))
  | .listReplicaSets space query =>
    .ask (.listReplicaSets space query) fun a => .done (.ok (replicaSetsListed space a))
  | .patchWorkload kind space name patch =>
    match Json.decode patch with
    | .error .tooDeep => .done (.ok (.error .malformed))
    | .error .noDocument => .done (.ok (Outcome.fail (.patch (.notADocument kind space name))))
    | .ok body =>
      .ask (.patch kind space name body) fun a => .done (.ok (workloadPatched kind space name a))
  | .eventWatermark space =>
    .ask (.listEvents space) fun a => .done (.ok (watermarkListed space a))
  | .rollBackDeployment space name revision annotations =>
    .ask (.post (rollbackPath space name) (rollbackBody name revision annotations))
      fun a => .done (.ok (rollbackPosted space name a))
  | .watchEvents space watermark =>
    .ask (watchAfter timeoutSeconds space watermark)
      fun a => .done (.ok ((expected a).map Feed.turns))
  | .stopWatch => .ask .stopWatch fun a => .done (.ok (expected a))

/-- **A program of the core as calls to the API.** -/
def talk {α : Type} (timeoutSeconds : Int) (p : Backend.Talk α) : Talk α :=
  p.through (answer timeoutSeconds)

/-- A feed on a namespace's events. -/
def openFeed (timeoutSeconds : Int) (space watermark : Text) : Talk Feed :=
  .ask (watchAfter timeoutSeconds space watermark)
    fun a => .done ((expected a).map Feed.opened)
end Api
end Rollout
