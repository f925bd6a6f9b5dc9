import Rollout.Revision.Basic

/-!
# Choosing a revision

Revisions are chosen by number. The highest number is taken for what is
live, so that `previous` is the second highest; a number that occurs twice
makes the history unusable, and which of its entries is meant is not
guessed. A choice depends on the entries alone and not on the order in which
they are listed.
-/

namespace Rollout

/-- What has a name and a revision number. -/
class Revisioned (α : Type) where
  name : α → Text
  revision : α → Int

instance : Revisioned Snapshot := ⟨Snapshot.name, Snapshot.revision⟩
instance : Revisioned ReplicaSet := ⟨ReplicaSet.name, ReplicaSet.revision⟩
instance : Revisioned (Text × Int) := ⟨Prod.fst, Prod.snd⟩

namespace Revision

open Revisioned (revision name)

variable {α : Type} [Revisioned α]

/-- The target that stands for the revision before the live one. -/
def previousTarget : Int := 0

/-- The history by ascending number; entries of one number keep their
order. -/
def sorted (history : List α) : List α :=
  history.mergeSort (fun a b => revision a ≤ revision b)

/-- The first number that two neighbours share. -/
def firstRepeated? : List α → Option Int
  | a :: b :: rest =>
    if revision a = revision b then some (revision b) else firstRepeated? (b :: rest)
  | _ => none

/-- **The history by ascending number**, refused if a number repeats. -/
def ordered (history : List α) : Outcome (List α) :=
  let all := sorted history
  match firstRepeated? all with
  | some n =>
    Outcome.fail (.duplicateRevision n ((all.filter (fun a => revision a = n)).map name))
  | none => .ok all

/-- **The entry before the last.** -/
def previous (history : List α) : Outcome α := do
  let all ← ordered history
  match all.reverse with
  | _ :: entry :: _ => return entry
  | _ => Outcome.fail .insufficientHistory

/-- **The entry a target names**: the one of that number, or for
`previousTarget` the one before the last. -/
def select (history : List α) (target : Int) : Outcome α :=
  if target < 0 then Outcome.fail (.revisionNotFound target)
  else if target = previousTarget then previous history
  else do
    let all ← ordered history
    match all.find? (fun a => revision a = target) with
    | some entry => return entry
    | none => Outcome.fail (.revisionNotFound target)

/-- An entry put in the place of the one with its number, or behind all. -/
def put (a : α) : List α → List α
  | [] => [a]
  | b :: rest => if revision b = revision a then a :: rest else b :: put a rest

/-- **One entry for each number**: the first place, the last entry. -/
def byNumber (children : List α) : List α :=
  children.foldl (fun all a => put a all) []

end Revision
end Rollout
