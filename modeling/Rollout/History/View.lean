import Rollout.History.Resolution
import Rollout.Revision.Choice
import Rollout.Revision.Reconstruction
import Rollout.Template.Description
import Rollout.Workload.Registry

/-!
# Showing a history

A history is shown as a table with a row for each revision, by ascending
number, or as the description of one revision's template. Daemon sets
rebuild the template from the snapshot; deployments have it in the replica
set, where the last one listed counts if a number repeats; stateful sets
list their numbers only. Who shows which kind is registered, and found by the
kind or a spelling of it (`viewerFor`).
-/

namespace Rollout
namespace History

/-- What is shown where nothing is recorded. -/
def noHistory : Text := "No rollout history found."

/-- A row of the table: the number and why the revision was made. -/
def causeRow (row : Int × Json) : Text :=
  .ofInt row.1 ++ "\t" ++ (if row.2.truthy then row.2.text else ("<none>" : Text)) ++ "\n"

/-- **The table of revisions and their causes.** -/
def causeTable (rows : List (Int × Json)) : Text :=
  TabStops.align {} ("REVISION\tCHANGE-CAUSE\n" ++ rows.flatMap causeRow)

/-- A row of the table of revisions alone. -/
def numberRow (n : Int) : Text :=
  .ofInt n ++ "\n"

/-- The table of revisions alone. -/
def numberTable (numbers : List Int) : Text :=
  TabStops.align {} ("REVISION\n" ++ numbers.flatMap numberRow)

/-- The cause under a key, empty if there is none. -/
def causeOf (key : Text) (annotations : Mapping) : Json :=
  annotations.getD key (.str "")

/-- The description of a template with the cause of its revision among its
annotations. Metadata and annotations are taken as mappings here. -/
def describedWithCause (key : Text) (cause template : Json) : Outcome Text := do
  let fs ← template.fields
  let metadata ← Fields.mappingAt fs "metadata"
  let annotations ← Fields.mappingAt metadata.fields "annotations"
  Template.describeWith (some (annotations.set (.str key) cause))
    (.obj (Fields.set fs "metadata" (.obj metadata.fields)))

/-- The description of a replica set's template. -/
def describedTemplate (key : Text) (r : ReplicaSet) : Outcome Text :=
  match Fields.given? r.annotations.fields key with
  | some cause => describedWithCause key cause r.template
  | none => Template.describe r.template

/-- The entry of a number. -/
def findRevision {α : Type} [Revisioned α] (entries : List α) (revision : Int) : Outcome α :=
  match entries.find? (fun a => Revisioned.revision a = revision) with
  | some a => .ok a
  | none => Outcome.fail (.revisionNotFound revision)

/-- The history of a deployment. -/
def viewDeployment (key space name : Text) (revision : Int) : Backend.Talk Text := do
  let w ← Backend.getWorkload .deployment space name
  let children := Revision.byNumber (← resolveReplicaSets w)
  if children.isEmpty then return noHistory
  else if 0 < revision then
    let child ← findRevision children revision
    describedTemplate key child
  else
    return causeTable ((Revision.sorted children).map
      (fun r => (r.revision, causeOf key r.annotations)))

/-- The history of a daemon set. -/
def viewDaemonSet (key space name : Text) (revision : Int) : Backend.Talk Text := do
  let (w, history) ← resolve .daemonSet space name
  if history.isEmpty then return noHistory
  else
    let all ← Revision.ordered history
    if 0 < revision then
      let snapshot ← findRevision all revision
      let recorded ← w.atRevision snapshot
      let template ← recorded.template
      Template.describe template
    else
      return causeTable (all.map (fun s => (s.revision, causeOf key s.annotations)))

/-- The history of a stateful set. -/
def viewStatefulSet (space name : Text) : Backend.Talk Text := do
  let (_, history) ← resolve .statefulSet space name
  if history.isEmpty then return noHistory
  else
    let all ← Revision.ordered history
    return numberTable (all.map Snapshot.revision)

/-- The history of a workload of the kind, causes taken from the annotation
`key`. -/
def viewKind (kind : Kind) (key space name : Text) (revision : Int) : Backend.Talk Text :=
  match kind with
  | .deployment => viewDeployment key space name revision
  | .daemonSet => viewDaemonSet key space name revision
  | .statefulSet => viewStatefulSet space name

/-- **A look at a history**: all revisions, or the template of one if
`revision` is above zero. -/
def view (kind : Kind) (key space name : Text) (revision : Int) : Backend.Talk Text := do
  Program.count (.historyViews kind)
  Program.log "history.viewer" "view_history" .debug [
    ("kind", .str kind.name),
    ("namespace", .str space),
    ("name", .str name),
    ("revision", .int revision)]
  viewKind kind key space name revision

/-- **What shows the histories of one kind of workload.** -/
structure Viewer where
  kind : Kind
  view : (space name : Text) → (revision : Int) → Backend.Talk Text

/-- What shows the histories of the kind, causes taken from the annotation
`key`. -/
def Viewer.ofKind (kind : Kind) (key : Text) : Viewer := ⟨kind, History.view kind key⟩

/-- Who shows what. -/
def viewers : List (Kind × (Text → Viewer)) := [
  (.deployment, .ofKind .deployment),
  (.daemonSet, .ofKind .daemonSet),
  (.statefulSet, .ofKind .statefulSet)]

/-- **The viewer for a kind**, causes taken from the annotation `key`. -/
def viewerFor (kind : Kind.Designation) (key : Text) : Outcome Viewer := do
  let viewer ← registered .history viewers kind
  return viewer key

/-- **Whoever shows a kind is found by it.** -/
@[simp] theorem viewerFor_kind (k : Kind) (key : Text) :
    viewerFor (.kind k) key = .ok (.ofKind k key) := by
  cases k <;> rfl

end History
end Rollout
