import Rollout.Patch.Order

/-!
# Strategic merge

How a patch changes an object. Maps are merged field by field: null deletes
a field, a scalar overwrites it, a map is merged into the map that is there,
and a list into the list. What becomes of a list depends on its field's
name. Lists with a merge key are merged element by element: an element of
the patch is merged into the first element with its key value, or put at the
end if there is none. Lists of united values gain the values they lack. Any
other list is replaced.

The order of the steps in one map is fixed: its mode, the fields it may
keep, the fields of the patch in their order, the removals, the orders. A
patch that does not fit ends with the first misfit in that order.

The recursion is on the patch. The object only supplies, at each step, what
stands at the place the patch is about.
-/

namespace Rollout
namespace Patch

/-- The path of a field in the map at `path`. -/
def fieldPath (path name : Text) : Text :=
  if path = "" then name else path ++ "." ++ name

/-- A text occurs in another. -/
def occursIn (word : Text) : Text → Bool
  | [] => word.isEmpty
  | c :: cs => word.isPrefixOf (c :: cs) || occursIn word cs

/-- A list's elements less those a removal names. A list of values names its
items, an object its field names, a text its pieces; nothing else can be
searched. -/
def withoutListed (items : List Json) (values : Json) : Outcome (List Json) :=
  match items, values with
  | [], _ => .ok []
  | _, .arr listed => .ok (items.filter (fun j => !j.isIn listed))
  | _, .obj fs =>
    if items.all identifies then
      .ok (items.filter (fun j => match j with | .str s => !Fields.has fs s | _ => true))
    else .error .malformed
  | _, .str text => do
    let kept ← items.mapM fun j =>
      match j with
      | .str s => Except.ok (if occursIn s text then none else some j)
      | _ => .error .malformed
    return kept.filterMap id
  | _, _ => .error .malformed

/-- A removal carried out on the list it is about, if that is a list. -/
def remove (result : Fields Json) (field : Text) (values : Json) : Outcome (Fields Json) :=
  match Fields.get? result field with
  | some (.arr items) => do
    let kept ← withoutListed items values
    return Fields.set result field (.arr kept)
  | _ => .ok result

/-- An order carried out on the list it is about, if that is a list. -/
def reorder (path : Text) (result : Fields Json) (field : Text) (order : Json) :
    Outcome (Fields Json) :=
  match Fields.get? result field with
  | some (.arr items) => do
    let sorted ← inOrder (mergeKey? field) (fieldPath path field) items order
    return Fields.set result field (.arr sorted)
  | _ => .ok result

/-- **One map under its patch's directives.** `merge` merges the patch's
fields into what the map may keep. The answer is `none` if the map is
deleted. -/
def directed (path : Text) (base patch : Fields Json)
    (merge : Fields Json → Outcome (Fields Json)) : Outcome (Option (Fields Json)) := do
  match ← mode path patch with
  | .replace => return some (Json.strippedFields patch)
  | .delete => return none
  | .merge =>
    let kept ←
      match ← retained? path patch with
      | none => pure base
      | some names => pure (base.filter (fun f => names.contains f.1))
    let directives ← listDirectives path patch
    let merged ← merge kept
    let reduced ← directives.removals.foldlM (fun r d => remove r d.1 d.2) merged
    let result ← directives.orders.foldlM (fun r d => reorder path r d.1 d.2) reduced
    return some result

/-- The place of the first element whose merge key has the value. -/
def indexOf? (key : Text) (wanted : Json) (items : List Json) : Option Nat :=
  items.findIdx? fun j =>
    match j with
    | .obj fs => (Fields.getD fs key .null).eqv wanted
    | _ => false

/-- An element's path in its list. -/
def elementPath (path key : Text) (wanted : Json) : Text :=
  path ++ "[" ++ key ++ "=" ++ wanted.text ++ "]"

/-- **One element of a keyed list put into the list.** `merge` merges it
into the element with its key value, or into an empty map. -/
def intoList (path key : Text) (items : List Json) (element : Fields Json)
    (merge : Text → Fields Json → Outcome (Option (Fields Json))) : Outcome (List Json) :=
  match Fields.get? element key with
  | none => refuse (.missingMergeKey path key)
  | some wanted =>
    let found := indexOf? key wanted items
    if hasMode "delete" (.obj element) then
      .ok (match found with | some i => items.eraseIdx i | none => items)
    else do
      let base :=
        match found.bind (fun i => items[i]?) with
        | some (.obj fs) => fs
        | _ => []
      match ← merge (elementPath path key wanted) base, found with
      | some fs, some i => return items.set i (.obj fs)
      | some fs, none => return items ++ [.obj fs]
      | none, some i => return items.eraseIdx i
      | none, none => return items

/-- The list that stands at a field, empty if there is none. -/
def listAt (path : Text) : Option Json → Outcome (List Json)
  | none => .ok []
  | some .null => .ok []
  | some (.arr items) => .ok items
  | some other => refuse (.listInto other.typeName path)

/-- The map that stands at a field, empty if there is none. -/
def mapAt (path : Text) : Option Json → Outcome (Fields Json)
  | none => .ok []
  | some .null => .ok []
  | some (.obj fs) => .ok fs
  | some other => refuse (.mapInto other.typeName path)

/-- A scalar overwrites anything but a map or a list. -/
def scalarAt (path : Text) : Option Json → Outcome Unit
  | some (.arr items) => refuse (.scalarOver (Json.arr items).typeName path)
  | some (.obj fs) => refuse (.scalarOver (Json.obj fs).typeName path)
  | _ => .ok ()

/-- The values of the patch that a united list lacks, behind it. -/
def united (base patch : List Json) : List Json :=
  base ++ patch.filter (fun j => !j.isIn base)

/-- **One list under its patch.** `merge` merges the patch's elements into a
list of maps by the key given. -/
def listed (path field : Text) (base patch : List Json)
    (merge : Text → List Json → Outcome (List Json)) : Outcome (List Json) :=
  if patch.any (hasMode "replace") then .ok (Json.strippedItems patch)
  else
    match mergeKey? field with
    | none => .ok (if isUnited field then united base patch else Json.strippedItems patch)
    | some key =>
      if (base ++ patch).all Json.isObject then merge key base
      else refuse (.notOnlyMaps path key)

mutual

/-- **A patch's value put at a field**: what the field holds afterwards,
`none` if it is gone. `current` is what it holds before. -/
def mergedValue (path field : Text) (current : Option Json) : Json → Outcome (Option Json)
  | .null => .ok none
  | .obj patch => do
    let base ← mapAt path current
    let merged ← directed path base patch (fun kept => mergedFields path kept patch)
    return merged.map Json.obj
  | .arr patch => do
    let base ← listAt path current
    let merged ← listed path field base patch
      (fun key items => mergedElements path key items patch)
    return some (.arr merged)
  | v => do
    scalarAt path current
    return some v

/-- The fields of a patch merged into a map, one after the other; directives
are passed over. -/
def mergedFields (path : Text) : Fields Json → List (Text × Json) → Outcome (Fields Json)
  | result, [] => .ok result
  | result, (k, v) :: rest =>
    if isDirective k then mergedFields path result rest
    else do
      let held ← mergedValue (fieldPath path k) k (Fields.get? result k) v
      let result :=
        match held with
        | none => Fields.erase result k
        | some w => Fields.set result k w
      mergedFields path result rest

/-- The elements of a patch merged into a keyed list, one after the
other. -/
def mergedElements (path key : Text) : List Json → List Json → Outcome (List Json)
  | items, [] => .ok items
  | items, .obj patch :: rest => do
    let items ← intoList path key items patch
      (fun place base => directed place base patch (fun kept => mergedFields place kept patch))
    mergedElements path key items rest
  | items, _ :: rest => mergedElements path key items rest

end

/-- **An object with a patch merged into it**; empty if the patch deletes
it. -/
def mergedObject (base patch : Fields Json) : Outcome (Fields Json) := do
  let merged ← directed "" base patch (fun kept => mergedFields "" kept patch)
  return merged.getD []

end Patch
end Rollout
