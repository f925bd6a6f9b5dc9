import Rollout.Json.Display
import Rollout.Workload.Kind

/-!
# What can go wrong

Errors are causes; the wording is in the `message` functions. A
`RolloutError` ends an invocation with a message. Beside it stands one other
way to fail, `Failure.malformed`: a value whose shape the program takes for
granted has another shape, and nothing sensible can be said about it.
-/

namespace Rollout

/-- **Why a patch does not apply.** Paths are dotted field names, with the
merge key and value of a list's element in brackets. -/
inductive PatchError where
  /-- The bytes hold no document. -/
  | malformedDocument
  /-- A document is not an object. -/
  | notObjects
  /-- The value of `$patch` is neither `replace` nor `delete`. -/
  | unknownMode (mode : Json) (path : Text)
  /-- A field starts with `$` and is no directive. -/
  | unknownDirective (name path : Text)
  /-- `$retainKeys` is no list of texts. -/
  | badRetainKeys (path : Text)
  /-- A map meets a value of another type. -/
  | mapInto (found path : Text)
  /-- A list meets a value of another type. -/
  | listInto (found path : Text)
  /-- A scalar meets a map or a list. -/
  | scalarOver (found path : Text)
  /-- A list with a merge key holds something else than maps. -/
  | notOnlyMaps (path mergeKey : Text)
  /-- An element of such a list has no merge key. -/
  | missingMergeKey (path mergeKey : Text)
  /-- The order of a list's elements is no list. -/
  | orderNotList (path : Text)
  /-- An element to be ordered, or an entry of the order, is a container and
  identifies nothing. -/
  | unorderable (path : Text)
  /-- A recorded revision does not apply to the live object. -/
  | revision (number : Int) (name : Text) (cause : PatchError)
  /-- The patch for an object is no document. -/
  | notADocument (kind : Kind) (space name : Text)
deriving Repr

namespace PatchError

/-- A path; the empty one is the root. -/
def atPath (path : Text) : Text :=
  if path = "" then "<root>" else path

/-- The message. -/
def message : PatchError → Text
  | malformedDocument => "malformed patch document"
  | notObjects => "strategic merge patch requires two JSON objects"
  | unknownMode mode path => "unknown patch directive " ++ mode.shown ++ " at " ++ atPath path
  | unknownDirective name path => "unknown patch directive " ++ quoted name ++ " at " ++ atPath path
  | badRetainKeys path => "$retainKeys at " ++ atPath path ++ " must be a list of strings"
  | mapInto found path => "cannot merge a map into " ++ found ++ " at " ++ path
  | listInto found path => "cannot merge a list into " ++ found ++ " at " ++ path
  | scalarOver found path => "cannot replace " ++ found ++ " with a scalar at " ++ path
  | notOnlyMaps path mergeKey =>
    "list at " ++ path ++ " merges by " ++ quoted mergeKey ++ " and must only hold maps"
  | missingMergeKey path mergeKey =>
    "element of " ++ path ++ " is missing merge key " ++ quoted mergeKey
  | orderNotList path => "$setElementOrder for " ++ path ++ " must be a list"
  | unorderable path => "$setElementOrder for " ++ path ++ " has unorderable entries"
  | revision number name cause =>
    "unable to apply revision " ++ .ofInt number ++ " (" ++ name ++ "): " ++ cause.message
  | notADocument kind space name =>
    "patch for " ++ kind.name ++ " " ++ space ++ "/" ++ name ++ " is not valid JSON"

end PatchError

/-- **Why a label selector cannot be sent.** -/
inductive SelectorError where
  /-- There is none. -/
  | missing
  /-- It is no map. -/
  | notMapping (found : Text)
  /-- A key is no label key. -/
  | badKey (key : Json)
  /-- A value is no label value. -/
  | badValue (value : Json)
  /-- A set operator has no values. -/
  | needsValue (operator key : Text)
  /-- An operator without values has some. -/
  | takesNoValue (operator key : Text)
  /-- There is no such operator. -/
  | badOperator (operator : Json)
  /-- It requires nothing. -/
  | empty
deriving Repr

/-- The message. -/
def SelectorError.message : SelectorError → Text
  | missing => "workload has no label selector"
  | notMapping found => "label selector must be a mapping, got " ++ found
  | badKey key => "invalid label key " ++ key.shown
  | badValue value => "invalid label value " ++ value.shown
  | needsValue operator key =>
    operator ++ " requirement on " ++ quoted key ++ " needs at least one value"
  | takesNoValue operator key =>
    operator ++ " requirement on " ++ quoted key ++ " must not have values"
  | badOperator operator => operator.shown ++ " is not a valid label selector operator"
  | empty => "workload label selector is empty"

/-- **Why a template cannot be described**: a part has not the type it must
have. -/
structure ConversionError where
  part : Text
  wanted : Text
  found : Text
deriving Repr

/-- The message. -/
def ConversionError.message (e : ConversionError) : Text :=
  "failed to convert podtemplate: " ++ e.part ++ " must be a " ++ e.wanted ++ ", got " ++ e.found

/-- What was asked of the cluster when it refused. -/
inductive Action where
  | retrieve (kind : Kind) (space name : Text)
  | listRevisions (space : Text)
  | listReplicaSets (space : Text)
  | listEvents (space : Text)
  | patch (kind : Kind) (space name : Text)
  | rollBack (space name : Text)
  | watchEvents
deriving Repr, DecidableEq

/-- The failed action in words. -/
def Action.message : Action → Text
  | retrieve kind space name => "failed to retrieve " ++ kind.name ++ " " ++ space ++ "/" ++ name
  | listRevisions space => "failed to list controller revisions in " ++ space
  | listReplicaSets space => "failed to list replica sets in " ++ space
  | listEvents space => "failed to list events in " ++ space
  | patch kind space name => "failed to patch " ++ kind.name ++ " " ++ space ++ "/" ++ name
  | rollBack space name => "failed to roll back deployment " ++ space ++ "/" ++ name
  | watchEvents => "event watch failed"

/-- **How the cluster failed.** -/
inductive BackendError where
  /-- It refused with a status, null if it gave none, and a reason. -/
  | refused (action : Action) (status : Json) (reason : Text)
  /-- The way to it could not be found. -/
  | configuration (reason : Text)
  /-- It failed while a revision was restored. -/
  | restoring (revision : Int) (cause : BackendError)
  /-- It failed otherwise. -/
  | other (reason : Text)
deriving Repr

namespace BackendError

/-- The status of the refusal, null if there is none. -/
def status : BackendError → Json
  | refused _ status _ => status
  | restoring _ cause => cause.status
  | _ => .null

/-- The message. -/
def message : BackendError → Text
  | refused action status reason =>
    action.message ++ ": " ++ status.text ++ " " ++ reason
  | configuration reason => "unable to load cluster configuration: " ++ reason
  | restoring revision cause =>
    "failed restoring revision " ++ .ofInt revision ++ ": " ++ cause.message
  | other reason => reason

end BackendError

/-- What a kind can be asked to do. -/
inductive Capability where
  | rollback
  | history
deriving Repr, DecidableEq

/-- Who does it. -/
def Capability.agent : Capability → Text
  | rollback => "rollbacker"
  | history => "history viewer"

/-- **The errors that end an invocation.** -/
inductive RolloutError where
  /-- The workload does not exist. -/
  | notFound (kind : Kind) (space name : Text)
  /-- The history has no such revision. -/
  | revisionNotFound (revision : Int)
  /-- There is no revision before the last. -/
  | insufficientHistory
  /-- A workload has no history to roll back in. -/
  | noRolloutHistory (kind : Kind) (name : Text)
  /-- A revision is recorded more than once, under these names. -/
  | duplicateRevision (revision : Int) (names : List Text)
  /-- A paused workload is not rolled back. -/
  | paused (kind : Kind) (name : Text)
  | patch (cause : PatchError)
  | selector (cause : SelectorError)
  | backend (cause : BackendError)
  | conversion (cause : ConversionError)
  /-- A spelling names no kind that can be asked this. -/
  | unsupportedKind (capability : Capability) (spelling : Text)
  /-- A workload of one kind was handed to what rolls back another. -/
  | otherKind (expected found : Kind)
deriving Repr

/-- A kind as a constant of the tool shows itself. -/
def Kind.shown : Kind → Text
  | .deployment => "<WorkloadKind.DEPLOYMENT: 'Deployment'>"
  | .daemonSet => "<WorkloadKind.DAEMON_SET: 'DaemonSet'>"
  | .statefulSet => "<WorkloadKind.STATEFUL_SET: 'StatefulSet'>"

namespace RolloutError

/-- **The message an invocation ends with.** -/
def message : RolloutError → Text
  | notFound kind space name =>
    "failed to retrieve " ++ kind.name ++ " " ++ space ++ "/" ++ name ++ ": not found"
  | revisionNotFound revision =>
    "unable to find specified revision " ++ .ofInt revision ++ " in history"
  | insufficientHistory => "no last revision to roll back to"
  | noRolloutHistory kind name =>
    "no rollout history found for " ++ kind.lowerName ++ " " ++ quoted name
  | duplicateRevision revision names =>
    let all := (", " : Text).intercalate (sortedTexts names)
    "revision " ++ .ofInt revision ++ " is recorded more than once: " ++ all
  | paused kind name =>
    let k := kind.lowerName
    "you cannot rollback a paused " ++ k ++ "; resume it first with " ++
      "'kubectl rollout resume " ++ k ++ "/" ++ name ++ "' and try again"
  | patch cause => cause.message
  | selector cause => cause.message
  | backend cause => cause.message
  | conversion cause => cause.message
  | unsupportedKind capability spelling =>
    "no " ++ capability.agent ++ " has been implemented for " ++ quoted spelling
  | otherKind expected found =>
    "no " ++ expected.name ++ " rollbacker has been implemented for " ++ found.shown

/-- The name of the error in a log. -/
def typeName : RolloutError → Text
  | notFound .. => "NotFound"
  | revisionNotFound _ => "RevisionNotFound"
  | insufficientHistory => "InsufficientHistory"
  | noRolloutHistory .. => "NoRolloutHistory"
  | duplicateRevision .. => "DuplicateRevisionError"
  | paused .. => "PausedWorkload"
  | patch _ => "PatchApplyError"
  | selector _ => "SelectorError"
  | backend _ => "BackendError"
  | conversion _ => "ConversionError"
  | unsupportedKind .. => "UnsupportedKindError"
  | otherKind .. => "UnsupportedKindError"

/-- What a log line says of the error. -/
def fields (e : RolloutError) : Fields Json := [
  ("error", .str e.message),
  ("error_type", .str e.typeName)]

end RolloutError

/-- **How a computation fails**: with an error that ends the invocation, or
on a value that has not the shape taken for granted. -/
inductive Failure where
  | rollout (error : RolloutError)
  | malformed
deriving Repr

/-- A result or a failure. -/
abbrev Outcome (α : Type) := Except Failure α

namespace Outcome

/-- The value, or a malformed one where there is none. -/
def ofOption {α : Type} : Option α → Outcome α
  | some a => .ok a
  | none => .error .malformed

/-- Ends with an error. -/
def fail {α : Type} (e : RolloutError) : Outcome α :=
  .error (.rollout e)

end Outcome
end Rollout
