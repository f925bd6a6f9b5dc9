import Rollout.Patch.Directive

/-!
# The order of a list's elements

An order lists what identifies the elements: the value of the merge key for
a map in a list that has one, the element itself otherwise. Elements are
sorted by the place of their identity, the last one if it is listed more
than once; elements that are not listed stand at the place behind as many
identities as are listed. Elements at one place keep their order.

Containers identify nothing, in the order or in the list.
-/

namespace Rollout
namespace Patch

/-- **What identifies an element.** A map without the merge key is
identified by null. -/
def identity (key? : Option Text) (j : Json) : Json :=
  match key?, j with
  | some key, .obj fs => Fields.getD fs key .null
  | _, j => j

/-- A value that can identify. -/
def identifies : Json → Bool
  | .arr _ => false
  | .obj _ => false
  | _ => true

/-- The distinct identities of an order, each with its last place; the first
entry stands at place `n`. -/
def lastPlaces : List Json → Nat → List (Json × Nat)
  | [], _ => []
  | j :: rest, n =>
    if j.isIn rest then lastPlaces rest (n + 1) else (j, n) :: lastPlaces rest (n + 1)

/-- The place of an identity. -/
def place (places : List (Json × Nat)) (j : Json) : Nat :=
  match places.find? (fun p => j.same p.1) with
  | some p => p.2
  | none => places.length

/-- **A list's elements in the order given.** -/
def inOrder (key? : Option Text) (path : Text) (items : List Json) (order : Json) :
    Outcome (List Json) :=
  match order with
  | .arr entries =>
    let identities := entries.map (identity key?)
    if identities.all identifies && items.all (fun j => identifies (identity key? j)) then
      let places := lastPlaces identities 0
      let placeOf := fun j => place places (identity key? j)
      .ok (items.mergeSort (fun a b => placeOf a ≤ placeOf b))
    else refuse (.unorderable path)
  | _ => refuse (.orderNotList path)

end Patch
end Rollout
