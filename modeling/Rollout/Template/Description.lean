import Rollout.Template.Volume
import Rollout.Text.TabStops

/-!
# Describing a pod template

A template is described line by line, a section for each of its parts, and
the cells of the lines are then aligned over the whole text. The description
either is complete or ends with the first part that has not its type; the
parts are looked at in the order in which they are shown.

Annotations may be handed in that are shown in place of the template's own.
They are a mapping, and one whose names are not all texts cannot be shown.

A template comes from a document that was read, and has no integer of more
digits than are read (`maxDigits`). For such an integer, which has no text, what is
said here does not hold.
-/

namespace Rollout
namespace Template

/-- A name and its value. -/
def entryText (f : Text × Json) : Text :=
  f.1 ++ "=" ++ f.2.text

/-- Names and values under a heading, by name, one in a line. -/
def sectionLines (level : Nat) (title : Text) (values : Fields Json) : List Text :=
  match (byName values).map entryText with
  | [] => [line level (title ++ ":\t<none>")]
  | first :: others =>
    line level (title ++ ":\t" ++ first) :: others.map (fun entry => line level ("\t" ++ entry))

/-- The lines of all containers under a name. -/
def containersLines (part : Text) (containers : List Json) : Outcome (List Text) := do
  let lines ← containers.mapM fun j => do containerLines (← asMap part j)
  return lines.flatten

/-- The annotations that are shown. -/
def shownAnnotations (metadata : Fields Json) : Option Mapping → Outcome (Fields Json)
  | none => mapAt "annotations" metadata "annotations"
  | some annotations => Outcome.ofOption annotations.fields?

/-- The lines of a template that is there. -/
def templateLines (annotations : Option Mapping) (template : Json) : Outcome (List Text) := do
  let fs ← asMap "template" template
  let metadata ← mapAt "template metadata" fs "metadata"
  let spec ← mapAt "template spec" fs "spec"
  let labels ← mapAt "labels" metadata "labels"
  let annotations ← shownAnnotations metadata annotations
  let account :=
    match Fields.given? spec "serviceAccountName" with
    | some name => [line 1 ("Service Account:\t" ++ name.text)]
    | none => []
  let initial ← listAt "initContainers" spec "initContainers"
  let initialLines ← containersLines "init container" initial
  let containers ← listAt "containers" spec "containers"
  let mainLines ← containersLines "container" containers
  let volumes ← listAt "volumes" spec "volumes"
  let volumesPart ← volumesLines volumes
  return sectionLines 1 "Labels" labels ++
    (if annotations.isEmpty then [] else sectionLines 1 "Annotations" annotations) ++
    account ++
    (if initial.isEmpty then [] else line 1 "Init Containers:" :: initialLines) ++
    line 1 "Containers:" :: mainLines ++
    volumesPart

/-- The description of a template, annotations in place of its own shown if
there are any. -/
def describeWith (annotations : Option Mapping) (template : Json) : Outcome Text := do
  let lines ←
    match template with
    | .null => pure [line 1 "<unset>"]
    | _ => templateLines annotations template
  let text := ("\n" : Text).intercalate (line 0 "Pod Template:" :: lines) ++ "\n"
  return TabStops.align {} text

/-- **The description of a template**; null stands for one that is not
set. -/
def describe (template : Json) : Outcome Text :=
  describeWith none template

end Template
end Rollout
