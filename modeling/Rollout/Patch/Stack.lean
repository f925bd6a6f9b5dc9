import Rollout.Patch.Document

/-!
# Merging on a stack

A merge calls itself for every map and every list of the patch that it goes
into, and before it does it copies what stands there, as it copies the parts
of the patch that are taken over without their directives. Copying takes two
calls for each level of containers, so that the stack is spent long before
documents are too deep to be read (`maxDepth`).

Here a merge has room for so many calls. Where none is left it fails, and
not with a patch's error: nobody looks out for it. In all else it is the
merge without a limit.
-/

namespace Rollout
namespace Patch

/-- A call, with one less left for what it calls. -/
def called {α : Type} (room : Nat) (call : Nat → Outcome α) : Outcome α :=
  match room with
  | 0 => .error .malformed
  | left + 1 => call left

/-- **A document is copied**, two calls deep for each of its levels. -/
def copied (room : Nat) (j : Json) : Outcome Unit :=
  if 2 * j.depth ≤ room then .ok () else .error .malformed

/-- What is copied of a map and its patch: what replaces the map, or the map
before anything is merged into it. -/
def mapCopied (room : Nat) (path : Text) (base patch : Fields Json) : Outcome Unit :=
  match mode path patch with
  | .ok .replace => copied room (Json.obj patch).stripped
  | .ok .merge => copied room (.obj base)
  | _ => .ok ()

/-- What is copied of a list and its patch, if its elements are not merged
one by one. -/
def listCopied (room : Nat) (field : Text) (base patch : List Json) : Outcome Unit :=
  if patch.any (hasMode "replace") then copied room (Json.arr patch).stripped
  else
    match mergeKey? field with
    | some _ => .ok ()
    | none =>
      if isUnited field then copied room (.arr base) else copied room (Json.arr patch).stripped

/-- One map under its patch's directives. -/
def directedWithin (room : Nat) (path : Text) (base patch : Fields Json)
    (merge : Nat → Fields Json → Outcome (Fields Json)) : Outcome (Option (Fields Json)) :=
  called room fun room => do
    mapCopied room path base patch
    directed path base patch (merge room)

/-- One list under its patch. A list that is merged element by element is
copied once its elements have been looked at. -/
def listedWithin (room : Nat) (path field : Text) (base patch : List Json)
    (merge : Nat → Text → List Json → Outcome (List Json)) : Outcome (List Json) :=
  called room fun room => do
    listCopied room field base patch
    listed path field base patch fun key items => do
      copied room (.arr items)
      merge room key items

mutual

/-- A patch's value put at a field. -/
def mergedValueWithin (room : Nat) (path field : Text) (current : Option Json) :
    Json → Outcome (Option Json)
  | .null => .ok none
  | .obj patch => do
    let base ← mapAt path current
    let merged ← directedWithin room path base patch
      (fun room kept => mergedFieldsWithin room path kept patch)
    return merged.map Json.obj
  | .arr patch => do
    let base ← listAt path current
    let merged ← listedWithin room path field base patch
      (fun room key items => mergedElementsWithin room path key items patch)
    return some (.arr merged)
  | v => do
    scalarAt path current
    return some v

/-- The fields of a patch merged into a map, one after the other. -/
def mergedFieldsWithin (room : Nat) (path : Text) :
    Fields Json → List (Text × Json) → Outcome (Fields Json)
  | result, [] => .ok result
  | result, (k, v) :: rest =>
    if isDirective k then mergedFieldsWithin room path result rest
    else do
      let held ← mergedValueWithin room (fieldPath path k) k (Fields.get? result k) v
      let result :=
        match held with
        | none => Fields.erase result k
        | some w => Fields.set result k w
      mergedFieldsWithin room path result rest

/-- The elements of a patch merged into a keyed list, one after the
other. -/
def mergedElementsWithin (room : Nat) (path key : Text) :
    List Json → List Json → Outcome (List Json)
  | items, [] => .ok items
  | items, .obj patch :: rest => do
    let items ← intoList path key items patch
      (fun place base => directedWithin room place base patch
        (fun room kept => mergedFieldsWithin room place kept patch))
    mergedElementsWithin room path key items rest
  | items, _ :: rest => mergedElementsWithin room path key items rest

end

/-- **An object with a patch merged into it**, as far as the stack
reaches. -/
def mergedObjectWithin (room : Nat) (base patch : Fields Json) : Outcome (Fields Json) := do
  let merged ← directedWithin room "" base patch
    (fun room kept => mergedFieldsWithin room "" kept patch)
  return merged.getD []

/-- A document with a patch document merged into it, as far as the stack
reaches. -/
def mergedDocumentWithin (room : Nat) : Json → Json → Outcome (Fields Json)
  | .obj base, .obj patch => mergedObjectWithin room base patch
  | _, _ => refuse .notObjects

/-- **Bytes with patch bytes merged into them**, as far as the stack
reaches. -/
def mergedBytesWithin (room : Nat) (base patch : Bytes) : Outcome Bytes := do
  let b ← document base
  let p ← document patch
  let merged ← mergedDocumentWithin room b p
  return Json.encode (.obj merged)

end Patch

/-- A document without its directives, as far as the stack reaches. -/
def Json.strippedWithin (room : Nat) (j : Json) : Outcome Json := do
  Patch.copied room j.stripped
  return j.stripped

end Rollout
