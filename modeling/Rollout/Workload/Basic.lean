import Rollout.Json.Shape

/-!
# Workloads

A workload is a live object as the cluster stores it, together with what
identifies it. The object itself is the truth; everything else about the
workload is read off it, and reading fails where a part has not the shape
it must have.
-/

namespace Rollout

/-- **A live workload.** -/
structure Workload where
  kind : Kind
  space : Text
  name : Text
  uid : Text
  /-- The whole object. -/
  raw : Fields Json
deriving Inhabited, Repr

namespace Workload

/-- The workload a stored object is. -/
def ofFields (kind : Kind) (raw : Fields Json) : Outcome Workload := do
  let metadata ← Fields.section? raw "metadata"
  return {
    kind := kind
    space := Fields.textAt metadata "namespace"
    name := Fields.textAt metadata "name"
    uid := Fields.textAt metadata "uid"
    raw := raw }

/-- The workload's metadata. -/
def metadata (w : Workload) : Outcome (Fields Json) :=
  Fields.section? w.raw "metadata"

/-- The workload's specification. -/
def spec (w : Workload) : Outcome (Fields Json) :=
  Fields.section? w.raw "spec"

/-- Its labels. -/
def labels (w : Workload) : Outcome Mapping := do
  Fields.mappingAt (← w.metadata) "labels"

/-- Its annotations. -/
def annotations (w : Workload) : Outcome Mapping := do
  Fields.mappingAt (← w.metadata) "annotations"

/-- **Its label selector**, null if it has none. -/
def selector (w : Workload) : Outcome Json := do
  return Fields.getD (← w.spec) "selector" .null

/-- **Its pod template**; an empty one is an empty object. -/
def template (w : Workload) : Outcome Json := do
  return (Fields.given? (← w.spec) "template").getD (.obj [])

/-- It is paused. -/
def paused (w : Workload) : Outcome Bool := do
  return (Fields.getD (← w.spec) "paused" (.bool false)).truthy

/-- How the workload is referred to: kind and name. -/
def ref (w : Workload) : Text :=
  w.kind.lowerName ++ "/" ++ w.name

end Workload
end Rollout
