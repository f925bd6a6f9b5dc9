import Rollout.Json.Shape

/-!
# Owners

An object names the objects it belongs to. One of them may be its
controller, and only the controller counts as what it is controlled by: if
several claim to be, the first does.
-/

namespace Rollout

/-- A reference from an object to one it belongs to. -/
structure Owner where
  kind : Text
  name : Text
  uid : Text
  apiVersion : Text
  controller : Bool
deriving DecidableEq, Repr, Inhabited

namespace Owner

/-- The reference a document holds. -/
def ofJson (j : Json) : Outcome Owner := do
  let fs ← j.fields
  return {
    kind := Fields.textAt fs "kind"
    name := Fields.textAt fs "name"
    uid := Fields.textAt fs "uid"
    apiVersion := Fields.textAt fs "apiVersion"
    controller := (Fields.getD fs "controller" (.bool false)).truthy }

/-- The references in an object's metadata. -/
def listOf (metadata : Fields Json) : Outcome (List Owner) := do
  let refs ← Fields.list metadata "ownerReferences"
  refs.mapM ofJson

end Owner

/-- **The first controller among the owners is the object `uid`.** -/
def isControlledBy (owners : List Owner) (uid : Text) : Bool :=
  match owners.find? Owner.controller with
  | some o => o.uid = uid
  | none => false

end Rollout
