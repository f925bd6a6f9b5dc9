import Rollout.Template.Part
import Rollout.Text.LowerCase

/-!
# Containers in a description

The lines that describe one container: its image and ports, what it runs,
its resources and probes, its environment and its mounts, each with a
heading that says so when there is none. Probes and the sources of
environment values are told by the first handler or source that is present,
in a fixed order.
-/

namespace Rollout
namespace Template

/-- A line, indented by two blanks for each level. -/
def line (level : Nat) (text : Text) : Text :=
  List.replicate (2 * level) (.char ' ') ++ text

/-- The ports, one behind the other. -/
def portsText (ports : List Json) : Outcome Text := do
  let shown ← ports.mapM fun j => do
    let entry ← asMap "container port" j
    return textOr entry "containerPort" "<none>" ++ "/" ++ textOr entry "protocol" "TCP"
  return (", " : Text).intercalate shown

/-- The line of the ports: one port stands under another heading than
several. -/
def portsLine (container : Fields Json) : Outcome Text := do
  let ports ← listAt "container ports" container "ports"
  let text ← portsText ports
  return if 1 < ports.length then line 2 ("Ports:\t" ++ text)
    else line 2 ("Port:\t" ++ (if text = "" then ("<none>" : Text) else text))

/-- The words of a command or its arguments under their heading. -/
def wordLines (container : Fields Json) (name title : Text) : Outcome (List Text) := do
  let words ← listAt ("container " ++ name) container name
  return if words.isEmpty then []
    else line 2 (title ++ ":") :: words.map (fun w => line 3 w.text)

/-- The amounts of resources under their heading, by name. -/
def amountLines (resources : Fields Json) (name title : Text) : Outcome (List Text) := do
  let amounts ← mapAt ("resource " ++ name) resources name
  return if amounts.isEmpty then []
    else line 2 (title ++ ":") ::
      (byName amounts).map (fun a => line 3 (a.1 ++ ":\t" ++ a.2.text))

/-- The first of some choices whose field an object has, with its value. -/
def firstOf {α : Type} (fieldName : α → Text) (fs : Fields Json) : List α → Option (α × Json)
  | [] => none
  | a :: rest =>
    match Fields.get? fs (fieldName a) with
    | some v => some (a, v)
    | none => firstOf fieldName fs rest

/-- **What a probe can do.** -/
inductive Handler where
  | httpGet
  | tcpSocket
  | exec
  | grpc
deriving DecidableEq, Repr

namespace Handler

/-- The field that holds it. -/
def fieldName : Handler → Text
  | httpGet => "httpGet"
  | tcpSocket => "tcpSocket"
  | exec => "exec"
  | grpc => "grpc"

/-- All of them, in the order in which they are looked for. -/
def all : List Handler := [httpGet, tcpSocket, exec, grpc]

end Handler

/-- What a probe does. -/
def probeAction (probe : Fields Json) : Outcome Text :=
  match firstOf Handler.fieldName probe Handler.all with
  | some (.httpGet, v) => do
    let get ← v.fields
    match Fields.getD get "scheme" (.str "HTTP") with
    | .str scheme =>
      return "http-get " ++ lowerCase scheme ++ "://" ++ textOr get "host" "" ++ ":" ++
        textOr get "port" "" ++ textOr get "path" ""
    | _ => .error .malformed
  | some (.tcpSocket, v) => do
    return "tcp-socket :" ++ textOr (← v.fields) "port" ""
  | some (.exec, v) => do
    return "exec " ++ (Fields.getD (← v.fields) "command" (.arr [])).text
  | some (.grpc, v) => do
    return "grpc <pod>:" ++ textOr (← v.fields) "port" ""
  | none => .ok "unknown"

/-- **A probe in one line.** -/
def probeText (probe : Fields Json) : Outcome Text := do
  let action ← probeAction probe
  return action ++ " delay=" ++ textOr probe "initialDelaySeconds" "0" ++
    "s timeout=" ++ textOr probe "timeoutSeconds" "1" ++
    "s period=" ++ textOr probe "periodSeconds" "10" ++
    "s #success=" ++ textOr probe "successThreshold" "1" ++
    " #failure=" ++ textOr probe "failureThreshold" "3"

/-- The line of a probe, if the container has it. -/
def probeLines (container : Fields Json) (name title : Text) : Outcome (List Text) := do
  let probe ← mapAt ("container " ++ name) container name
  if probe.isEmpty then return []
  else return [line 2 (title ++ ":\t" ++ (← probeText probe))]

/-- **Where an environment value can come from.** -/
inductive ValueSource where
  | field
  | resourceField
  | secretKey
  | configMapKey
deriving DecidableEq, Repr

namespace ValueSource

/-- The field that holds it. -/
def fieldName : ValueSource → Text
  | field => "fieldRef"
  | resourceField => "resourceFieldRef"
  | secretKey => "secretKeyRef"
  | configMapKey => "configMapKeyRef"

/-- All of them, in the order in which they are looked for. -/
def all : List ValueSource := [field, resourceField, secretKey, configMapKey]

end ValueSource

/-- Where an environment value comes from. -/
def sourceText (source : Fields Json) : Outcome Text :=
  match firstOf ValueSource.fieldName source ValueSource.all with
  | some (.field, v) => do
    let ref ← v.fields
    return "(" ++ textOr ref "apiVersion" "v1" ++ ":" ++ textOr ref "fieldPath" "" ++ ")"
  | some (.resourceField, v) => do
    return textOr (← v.fields) "resource" ""
  | some (.secretKey, v) => do
    let ref ← v.fields
    return "<set to the key '" ++ textOr ref "key" "" ++ "' in secret '" ++
      textOr ref "name" "" ++ "'>"
  | some (.configMapKey, v) => do
    let ref ← v.fields
    return "<set to the key '" ++ textOr ref "key" "" ++ "' of config map '" ++
      textOr ref "name" "" ++ "'>"
  | none => .ok ""

/-- **The value of an environment variable**, or where it comes from. -/
def variableText (entry : Fields Json) : Outcome Text := do
  match Fields.get? entry "value" with
  | some v => return v.text
  | none => sourceText (← mapAt "env valueFrom" entry "valueFrom")

/-- The lines of the environment. -/
def environmentLines (container : Fields Json) : Outcome (List Text) := do
  let env ← listAt "container env" container "env"
  if env.isEmpty then return [line 2 "Environment:\t<none>"]
  else
    let lines ← env.mapM fun j => do
      let entry ← asMap "env var" j
      let value ← variableText entry
      return line 3 (textOr entry "name" "" ++ ":\t" ++ value)
    return line 2 "Environment:" :: lines

/-- The lines of the mounts. -/
def mountLines (container : Fields Json) : Outcome (List Text) := do
  let mounts ← listAt "container volumeMounts" container "volumeMounts"
  if mounts.isEmpty then return [line 2 "Mounts:\t<none>"]
  else
    let lines ← mounts.mapM fun j => do
      let mount ← asMap "volume mount" j
      let flags := if (Fields.getD mount "readOnly" .null).truthy then "ro" else "rw"
      return line 3 (textOr mount "mountPath" "" ++ " from " ++ textOr mount "name" "" ++
        " (" ++ flags ++ ")")
    return line 2 "Mounts:" :: lines

/-- **The lines of a container.** -/
def containerLines (container : Fields Json) : Outcome (List Text) := do
  let ports ← portsLine container
  let command ← wordLines container "command" "Command"
  let args ← wordLines container "args" "Args"
  let resources ← mapAt "container resources" container "resources"
  let limits ← amountLines resources "limits" "Limits"
  let requests ← amountLines resources "requests" "Requests"
  let liveness ← probeLines container "livenessProbe" "Liveness"
  let readiness ← probeLines container "readinessProbe" "Readiness"
  let startup ← probeLines container "startupProbe" "Startup"
  let environment ← environmentLines container
  let mounts ← mountLines container
  return [line 1 (" " ++ textOr container "name" "<unnamed>" ++ ":"),
      line 2 ("Image:\t" ++ textOr container "image" ""), ports] ++
    command ++ args ++ limits ++ requests ++ liveness ++ readiness ++ startup ++
    environment ++ mounts

end Template
end Rollout
