import Rollout.Template.Container

/-!
# Volumes in a description

A volume is told by its source, which is its first field that is not its
name. The sources that are known have a label, a few words and the field
worth showing; any other source is shown by its field's name.
-/

namespace Rollout
namespace Template

/-- What is told of a volume's source. -/
structure SourceKind where
  label : Text
  description : Text
  /-- The field worth showing with its heading. -/
  detail : Option (Text × Text)

/-- The sources that are known, by field. -/
def sourceKinds : List (Text × SourceKind) := [
  ("emptyDir",
    ⟨"EmptyDir", "a temporary directory that shares a pod's lifetime", some ("medium", "Medium")⟩),
  ("configMap", ⟨"ConfigMap", "a volume populated by a ConfigMap", some ("name", "Name")⟩),
  ("secret", ⟨"Secret", "a volume populated by a Secret", some ("secretName", "SecretName")⟩),
  ("hostPath", ⟨"HostPath", "bare host directory volume", some ("path", "Path")⟩),
  ("persistentVolumeClaim",
    ⟨"PersistentVolumeClaim", "a reference to a PersistentVolumeClaim in the same namespace",
      some ("claimName", "ClaimName")⟩),
  ("projected",
    ⟨"Projected", "a volume that contains injected data from multiple sources", none⟩),
  ("downwardAPI",
    ⟨"DownwardAPI", "a volume populated by information about the pod", none⟩)]

/-- What is told of the source in a field. -/
def sourceKind (field : Text) : SourceKind :=
  match sourceKinds.lookup field with
  | some k => k
  | none => ⟨if field = "" then "<unknown>" else field, "", none⟩

/-- **The field that holds a volume's source**: the first that is not its
name, the empty one if there is no other. -/
def sourceField (volume : Fields Json) : Text :=
  match volume.find? (fun f => f.1 ≠ ("name" : Text)) with
  | some f => f.1
  | none => ""

/-- The lines of a volume. -/
def volumeLines (volume : Fields Json) : Outcome (List Text) := do
  let field := sourceField volume
  let kind := sourceKind field
  let type :=
    if kind.description = "" then kind.label else kind.label ++ " (" ++ kind.description ++ ")"
  let source ← mapAt ("volume " ++ field) volume field
  let detail :=
    match kind.detail with
    | some (name, title) => [line 2 (title ++ ":\t" ++ textOr source name "")]
    | none => []
  return [line 1 (" " ++ textOr volume "name" "<unnamed>" ++ ":"), line 2 ("Type:\t" ++ type)] ++
    detail

/-- **The lines of all volumes.** -/
def volumesLines (volumes : List Json) : Outcome (List Text) := do
  if volumes.isEmpty then return [line 1 "Volumes:\t<none>"]
  else
    let lines ← volumes.mapM fun j => do volumeLines (← asMap "volume" j)
    return line 1 "Volumes:" :: lines.flatten

end Template
end Rollout
