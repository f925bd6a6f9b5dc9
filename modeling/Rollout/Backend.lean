import Rollout.Event.Stream
import Rollout.Program
import Rollout.Revision.Basic
import Rollout.Workload.Basic

/-!
# What the core asks of a cluster

Seven requests and the end of a watch. Each is a single call that succeeds
with a value of the library's own types or fails; nothing is kept or tried
again in between. Two of them change the cluster (`Request.isMutating`).

Watching a namespace answers with the script of the watch: the requester
takes as many turns of it as it needs and then stops the watch.
-/

namespace Rollout
namespace Backend

/-- **A request to the cluster.** -/
inductive Request where
  /-- The live workload. -/
  | getWorkload (kind : Kind) (space name : Text)
  /-- The snapshots in a namespace that a query selects. -/
  | listSnapshots (space query : Text)
  /-- The replica sets in a namespace that a query selects. -/
  | listReplicaSets (space query : Text)
  /-- A patch merged into the live object. -/
  | patchWorkload (kind : Kind) (space name : Text) (patch : Bytes)
  /-- Where the namespace's events stand now. -/
  | eventWatermark (space : Text)
  /-- A deployment rolled back by the cluster itself. -/
  | rollBackDeployment (space name : Text) (revision : Int) (annotations : Fields Json)
  /-- The namespace's events after a watermark. -/
  | watchEvents (space watermark : Text)
  /-- No more of them. -/
  | stopWatch
deriving Repr

/-- The type of a request's answer. -/
abbrev Request.Answer : Request → Type
  | getWorkload .. => Outcome Workload
  | listSnapshots .. => Outcome (List Snapshot)
  | listReplicaSets .. => Outcome (List ReplicaSet)
  | patchWorkload .. => Outcome Workload
  | eventWatermark _ => Outcome Text
  | rollBackDeployment .. => Outcome Unit
  | watchEvents .. => Outcome Script
  | stopWatch => Outcome Unit

/-- **The request changes the cluster.** -/
def Request.isMutating : Request → Bool
  | patchWorkload .. => true
  | rollBackDeployment .. => true
  | _ => false

/-- A program that makes requests. -/
abbrev Talk (α : Type) := Program Request Request.Answer α

/-- The live workload. -/
def getWorkload (kind : Kind) (space name : Text) : Talk Workload :=
  .ask (.getWorkload kind space name) .done

/-- The snapshots that a query selects. -/
def listSnapshots (space query : Text) : Talk (List Snapshot) :=
  .ask (.listSnapshots space query) .done

/-- The replica sets that a query selects. -/
def listReplicaSets (space query : Text) : Talk (List ReplicaSet) :=
  .ask (.listReplicaSets space query) .done

/-- A patch merged into the live object. -/
def patchWorkload (kind : Kind) (space name : Text) (patch : Bytes) : Talk Workload :=
  .ask (.patchWorkload kind space name patch) .done

/-- Where the namespace's events stand. -/
def eventWatermark (space : Text) : Talk Text :=
  .ask (.eventWatermark space) .done

/-- A deployment rolled back by the cluster. -/
def rollBackDeployment (space name : Text) (revision : Int) (annotations : Fields Json) :
    Talk Unit :=
  .ask (.rollBackDeployment space name revision annotations) .done

/-- The namespace's events after a watermark. -/
def watchEvents (space watermark : Text) : Talk Script :=
  .ask (.watchEvents space watermark) .done

/-- The watch stopped. -/
def stopWatch : Talk Unit :=
  .ask .stopWatch .done

end Backend
end Rollout
