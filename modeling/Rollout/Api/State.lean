import Rollout.Api.Memory

/-!
# A cluster read from a document

The state of a cluster in memory, written as an object: the stored workloads
and histories, what a watch delivers, the version of the list of events, and
the calls that fail. A part that is not written keeps its empty state.

What stands in the place of a history or of the deliveries is taken as it
is; whether it makes sense turns out when it is asked for. The names under
which workloads are stored, and the calls that fail, are looked at here.
-/

namespace Rollout
namespace Api

/-- The fields of a value, none if it is no object. -/
def fieldsOf : Json → Fields Json
  | .obj fs => fs
  | _ => []

/-- The items of a value, none if it is no list. -/
def itemsOf : Json → List Json
  | .arr items => items
  | _ => []

/-- A field of an object, null if it is not there. -/
def field (j : Json) (name : Text) : Json :=
  Fields.getD (fieldsOf j) name .null

/-- **How a call fails**, as it is written. -/
def CallError.ofJson : Json → CallError
  | .obj fs => .refused (Fields.getD fs "status" .null) (Fields.getD fs "reason" .null).text
  | _ => .malformed

/-- **What a watch delivers**, as it is written. -/
def Delivery.ofJson (j : Json) : Delivery :=
  match Fields.get? (fieldsOf j) "event" with
  | some event => .object event (field j "cancel").truthy
  | none =>
    if (field j "block").truthy then .silence
    else if (field j "timeout").truthy then .timedOut
    else
      match CallError.ofJson (field j "api_error") with
      | .refused status reason => .refused status reason
      | _ => .malformed

/-- All that a watch delivers. -/
def deliveriesOf (j : Json) : List Delivery :=
  match j.elements? with
  | some items => items.map Delivery.ofJson
  | none => [.malformed]

/-- What an object can be stored under. No text asks for what is stored under
another value, and nothing is stored under a container. -/
def placeOf : Json → Outcome (Option Text)
  | .str s => .ok (some s)
  | .arr _ => .error .malformed
  | .obj _ => .error .malformed
  | _ => .ok none

/-- **A stored workload**, as it is written, unless it is stored where nobody
finds it. What it is stored under is taken from its metadata unless it is
written beside it. -/
def Stored.ofJson? (j : Json) : Outcome (Option Stored) := do
  let object := field j "object"
  let metadata ← Fields.section? (← object.fields) "metadata"
  let under : Text → Outcome (Option Text) := fun name =>
    match field j name with
    | .null => placeOf (Fields.getD metadata name .null)
    | written => placeOf written
  let kind ← placeOf (field j "kind")
  let space ← under "namespace"
  let name ← under "name"
  return do return ⟨← kind.bind Kind.named?, ← space, ← name, object⟩

namespace Memory

/-- A workload stored as it is written. -/
def store (m : Memory) (j : Json) : Outcome Memory := do
  let stored ← Stored.ofJson? j
  return stored.elim m m.put

/-- The calls that fail, by their names, and under `connect` why the server
cannot be looked up. -/
def withFaults (m : Memory) (v : Json) : Outcome Memory := do
  let written := (← v.mapping).fields.filter (fun f => !Json.isNull (some f.2))
  return { m with
    faults := (Fields.erase written "connect").map (fun f => (f.1, CallError.ofJson f.2))
    unreachable := (Fields.get? written "connect").map Json.text }

/-- **The cluster a document describes.** -/
def ofJson (j : Json) : Outcome Memory := do
  let fs := fieldsOf j
  let listing : Text → Option (List Json) := fun name =>
    (Fields.getD fs name (.arr [])).elements?
  let parts : Memory := { empty with
    revisions := listing "revisions"
    replicaSets := listing "replicasets"
    deliveries := deliveriesOf (Fields.getD fs "watch" (.arr []))
    watermark := Fields.getD fs "watermark" empty.watermark }
  let parts ← parts.withFaults (Fields.getD fs "faults" (.obj []))
  (itemsOf (field j "workloads")).foldlM store parts

end Memory
end Api
end Rollout
