import Rollout.Error
import Rollout.Json.Equality

/-!
# Directives

A patch says how it is to be merged in fields whose names start with `$`:

* `$patch` replaces or deletes the map it stands in (`Mode`);
* `$retainKeys` lists the only fields the map may keep;
* `$setElementOrder/f` orders the elements of the list `f`;
* `$deleteFromPrimitiveList/f` takes values out of the list `f`.

Directives are instructions and not data: a map or list that is taken over
as it stands loses them first (`Json.stripped`).
-/

namespace Rollout
namespace Patch

/-- The field that says what becomes of a map. -/
def modeField : Text := "$patch"

/-- The field that lists what a map may keep. -/
def retainField : Text := "$retainKeys"

/-- How the field that orders a list starts. -/
def orderStem : Text := "$setElementOrder/"

/-- How the field that takes values out of a list starts. -/
def removalStem : Text := "$deleteFromPrimitiveList/"

/-- **A directive's name.** -/
def isDirective (name : Text) : Bool :=
  name.head? == some (.char '$')

/-- The list a directive is about, if the name starts with the stem. -/
def listOf? (stem name : Text) : Option Text :=
  if stem.isPrefixOf name then some (name.drop stem.length) else none

/-- The merge key of the lists whose elements are merged one by one. -/
def mergeKeys : List (Text × Text) := [
  ("containers", "name"),
  ("initContainers", "name"),
  ("ephemeralContainers", "name"),
  ("env", "name"),
  ("ports", "containerPort"),
  ("volumes", "name"),
  ("volumeMounts", "mountPath"),
  ("volumeDevices", "devicePath"),
  ("imagePullSecrets", "name"),
  ("hostAliases", "ip"),
  ("topologySpreadConstraints", "topologyKey"),
  ("resourceClaims", "name"),
  ("ownerReferences", "uid"),
  ("conditions", "type")]

/-- The merge key of a list, by the name of its field. -/
def mergeKey? (field : Text) : Option Text :=
  mergeKeys.lookup field

/-- A list of plain values that are united. -/
def isUnited (field : Text) : Bool :=
  field == "finalizers"

/-- Ends with a patch's error. -/
def refuse {α : Type} (e : PatchError) : Outcome α :=
  Outcome.fail (.patch e)

/-- What `$patch` says about a map. -/
inductive Mode where
  | merge
  | replace
  | delete
deriving DecidableEq, Repr

/-- The mode of a patch's map. -/
def mode (path : Text) (patch : Fields Json) : Outcome Mode :=
  match Fields.get? patch modeField with
  | none => .ok .merge
  | some .null => .ok .merge
  | some (.str word) =>
    if word = "replace" then .ok .replace
    else if word = "delete" then .ok .delete
    else refuse (.unknownMode (.str word) path)
  | some other => refuse (.unknownMode other path)

/-- The element says so of itself. -/
def hasMode (word : Text) : Json → Bool
  | .obj fs =>
    match Fields.get? fs modeField with
    | some (.str s) => s == word
    | _ => false
  | _ => false

/-- The names a map may keep, if the patch lists them. -/
def retained? (path : Text) (patch : Fields Json) : Outcome (Option (List Text)) :=
  match Fields.get? patch retainField with
  | none => .ok none
  | some .null => .ok none
  | some (.arr items) =>
    match items.mapM (fun j => match j with | .str s => some s | _ => none) with
    | some names => .ok (some names)
    | none => refuse (.badRetainKeys path)
  | some _ => refuse (.badRetainKeys path)

/-- The lists a patch's map gives an order to, and those it takes values out
of, each with what the directive says. -/
structure ListDirectives where
  orders : Fields Json
  removals : Fields Json
deriving Inhabited

/-- One field's share in the list directives. -/
def addListDirective (path : Text) (ds : ListDirectives) (name : Text) (v : Json) :
    Outcome ListDirectives :=
  if name = modeField ∨ name = retainField ∨ !isDirective name then .ok ds
  else
    match listOf? orderStem name with
    | some field => .ok { ds with orders := ds.orders ++ [(field, v)] }
    | none =>
      match listOf? removalStem name with
      | some field => .ok { ds with removals := ds.removals ++ [(field, v)] }
      | none => refuse (.unknownDirective name path)

/-- **The list directives of a patch's map.** Any other directive is
refused. -/
def listDirectives (path : Text) (patch : Fields Json) : Outcome ListDirectives :=
  patch.foldlM (fun ds f => addListDirective path ds f.1 f.2) ⟨[], []⟩

/-- An element that holds nothing but `$patch`. -/
def isBareMode : Json → Bool
  | .obj [(k, _)] => k == modeField
  | _ => false

end Patch

namespace Json

mutual

/-- **A document without its directives**, at every depth: no field whose
name starts with `$`, no element that is nothing but `$patch`. -/
def stripped : Json → Json
  | arr items => arr (strippedItems items)
  | obj fields => obj (strippedFields fields)
  | v => v

/-- The items of a list without their directives. -/
def strippedItems : List Json → List Json
  | [] => []
  | x :: xs =>
    if Patch.isBareMode x then strippedItems xs else stripped x :: strippedItems xs

/-- The fields of an object without their directives. -/
def strippedFields : List (Text × Json) → List (Text × Json)
  | [] => []
  | (k, v) :: fs =>
    if Patch.isDirective k then strippedFields fs else (k, stripped v) :: strippedFields fs

end

end Json
end Rollout
