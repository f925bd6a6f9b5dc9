import Rollout.Json.Encoding
import Rollout.Json.Reread
import Rollout.Patch.Merge

/-!
# Patches as bytes

A patch is recorded and sent as bytes. Applied to an object in bytes it
gives the merged object in bytes. Applied to a document it gives a document,
by the same way: what is merged is the document as it is read from its bytes,
and what comes of it is read from bytes again. Bytes that hold no document,
and documents that are no objects, are refused before anything is merged.

Merging is taken to have all the stack it needs. Copying the object and what
replaces parts of it spends the stack on documents that are nested about half
as deep as those that can be read; what becomes of these is in
`Patch.mergedBytesWithin`, which is the same merge on a stack with an end.
-/

namespace Rollout
namespace Patch

/-- **A document with a patch document merged into it.** -/
def mergedDocument : Json → Json → Outcome (Fields Json)
  | .obj base, .obj patch => mergedObject base patch
  | _, _ => refuse .notObjects

/-- **A document with a patch document applied to it.** -/
def appliedDocument (base patch : Json) : Outcome (Fields Json) := do
  let merged ← mergedDocument base.reread patch
  return Fields.reread merged

/-- The document that a patch's bytes hold. -/
def document (bs : Bytes) : Outcome Json :=
  match Json.decode bs with
  | .ok j => .ok j
  | .error .noDocument => refuse .malformedDocument
  | .error .tooDeep => .error .malformed

/-- **Bytes with patch bytes merged into them**, with no end to the stack. -/
def mergedBytes (base patch : Bytes) : Outcome Bytes := do
  let b ← document base
  let p ← document patch
  let merged ← mergedDocument b p
  return Json.encode (.obj merged)

end Patch
end Rollout
