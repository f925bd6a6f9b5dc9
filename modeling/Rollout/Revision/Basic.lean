import Rollout.Json.Encoding
import Rollout.Workload.Owner

/-!
# Recorded revisions

A workload's past is recorded in two ways. A `Snapshot` is a numbered patch
that turns the live object into the recorded one; daemon sets and stateful
sets have these. A `ReplicaSet` is a child of a deployment that carries the
number in an annotation and the pod template as it is; without a readable
number a child is no revision.
-/

namespace Rollout

/-- The annotation in which a replica set carries its revision number. -/
def revisionKey : Text := "deployment.kubernetes.io/revision"

/-- The annotation that says why a revision was made, unless another is
asked for. -/
def changeCauseKey : Text := "kubernetes.io/change-cause"

/-- **A numbered patch** to the workload's object. -/
structure Snapshot where
  name : Text
  space : Text
  revision : Int
  /-- The patch, as the bytes it is sent in. -/
  data : Bytes
  owners : List Owner
  labels : Mapping
  annotations : Mapping
deriving Inhabited, Repr

/-- **A child that carries a template** and its revision number. -/
structure ReplicaSet where
  name : Text
  space : Text
  revision : Int
  template : Json
  annotations : Mapping
  owners : List Owner
deriving Inhabited, Repr

/-- The bytes of recorded data: the compact form of the document, an empty
object if there is none. -/
def encodeData : Option Json → Bytes
  | none => Json.encode (.obj [])
  | some .null => Json.encode (.obj [])
  | some v => Json.encode v

namespace Snapshot

/-- The snapshot a stored object is. -/
def ofJson (j : Json) : Outcome Snapshot := do
  let raw ← j.fields
  let metadata ← Fields.section? raw "metadata"
  let revision ← (Fields.getD raw "revision" (.int 0)).integer
  let revision ← Outcome.ofOption revision
  let owners ← Owner.listOf metadata
  let labels ← Fields.mappingAt metadata "labels"
  let annotations ← Fields.mappingAt metadata "annotations"
  return {
    name := Fields.textAt metadata "name"
    space := Fields.textAt metadata "namespace"
    revision := revision
    data := encodeData (Fields.get? raw "data")
    owners := owners
    labels := labels
    annotations := annotations }

/-- Why the revision was made. -/
def changeCause (s : Snapshot) : Json :=
  s.annotations.getD changeCauseKey (.str "")

end Snapshot

/-- **The revision number in annotations**, if there is one that can be
read. -/
def revisionOf (annotations : Mapping) : Outcome (Option Int) :=
  match annotations.get? revisionKey with
  | none => .ok none
  | some .null => .ok none
  | some v => v.integer

namespace ReplicaSet

/-- The replica set a stored object is; none without a revision number. -/
def ofJson (j : Json) : Outcome (Option ReplicaSet) := do
  let raw ← j.fields
  let metadata ← Fields.section? raw "metadata"
  let annotations ← Fields.mappingAt metadata "annotations"
  match ← revisionOf annotations with
  | none => return none
  | some revision =>
    let spec ← Fields.section? raw "spec"
    let owners ← Owner.listOf metadata
    return some {
      name := Fields.textAt metadata "name"
      space := Fields.textAt metadata "namespace"
      revision := revision
      template := (Fields.given? spec "template").getD (.obj [])
      annotations := annotations
      owners := owners }

/-- Why the revision was made. -/
def changeCause (r : ReplicaSet) : Json :=
  r.annotations.getD changeCauseKey (.str "")

end ReplicaSet
end Rollout
