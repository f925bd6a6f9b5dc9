import Rollout.Patch.Document
import Rollout.Revision.Basic
import Rollout.Workload.Basic

/-!
# The workload at a revision

A snapshot's patch merged into the live object gives the object as it was
when the snapshot was recorded. Neither the live object nor the snapshot
changes, so the same snapshot gives the same object again.

The live object and the snapshot are taken to be nested so little that there is
stack enough for their copies, as they are if they have less than half the
levels that can be read (`Patch.mergedBytesWithin_eq`).
-/

namespace Rollout

/-- A patch's error told as that of the snapshot it comes from. -/
def Snapshot.blame {α : Type} (s : Snapshot) : Outcome α → Outcome α
  | .error (.rollout (.patch e)) => .error (.rollout (.patch (.revision s.revision s.name e)))
  | r => r

/-- **The workload as the snapshot recorded it**, with no end to the stack. -/
def Workload.atRevision (live : Workload) (s : Snapshot) : Outcome Workload := do
  let raw ← s.blame (do
    let patch ← Patch.document s.data
    Patch.appliedDocument (.obj live.raw) patch)
  Workload.ofFields live.kind raw

end Rollout
