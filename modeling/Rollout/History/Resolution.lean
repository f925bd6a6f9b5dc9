import Rollout.Backend
import Rollout.Selector.Query

/-!
# A workload's own history

The query of a workload's selector narrows what the cluster lists, but
several workloads may select the same labels; what counts as a workload's
history is decided by who controls the recorded objects.
-/

namespace Rollout
namespace History

/-- The snapshots that a workload controls. -/
def ownedSnapshots (w : Workload) (candidates : List Snapshot) : List Snapshot :=
  candidates.filter (fun s => isControlledBy s.owners w.uid)

/-- The replica sets that a workload controls. -/
def ownedReplicaSets (w : Workload) (candidates : List ReplicaSet) : List ReplicaSet :=
  candidates.filter (fun r => isControlledBy r.owners w.uid)

/-- The query of a workload's selector. -/
def queryOf (w : Workload) : Outcome Text := do
  Selector.query (← w.selector)

/-- Notes down how many of the objects listed count. -/
def noteResolved (event : Text) (w : Workload) (candidates owned : Nat) : Backend.Talk Unit :=
  Program.log "history.resolver" event .debug [
    ("workload", .str w.ref),
    ("namespace", .str w.space),
    ("candidates", .int candidates),
    ("owned", .int owned)]

/-- **The live workload and its snapshots.** -/
def resolve (kind : Kind) (space name : Text) : Backend.Talk (Workload × List Snapshot) := do
  let w ← Backend.getWorkload kind space name
  let query ← queryOf w
  let candidates ← Backend.listSnapshots w.space query
  let history := ownedSnapshots w candidates
  noteResolved "history_resolved" w candidates.length history.length
  return (w, history)

/-- **The replica sets of a deployment.** -/
def resolveReplicaSets (w : Workload) : Backend.Talk (List ReplicaSet) := do
  let query ← queryOf w
  let candidates ← Backend.listReplicaSets w.space query
  let children := ownedReplicaSets w candidates
  noteResolved "replica_sets_resolved" w candidates.length children.length
  return children

end History
end Rollout
