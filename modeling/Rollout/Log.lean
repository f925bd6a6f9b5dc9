import Rollout.Error
import Rollout.Note
import Rollout.Text.UpperCase

/-!
# Log lines as documents

A log line is written as an object: the fields of the invocation it belongs
to, then the line's component and own fields, then event and level. A later
field of a name takes the place of an earlier one. Lines below the level of
the log are not written.

Some names cannot be fields of a line's own, since writing a line takes them
for itself (`isTaken`, `isTakenInWriting`), and one field is for the writing
alone and shown in no line (`hiddenField`).
-/

namespace Rollout

/-- What is written, and the fields of the current invocation. -/
structure Logging where
  /-- The least rank that is written. -/
  threshold : Nat
  bound : Fields Json
deriving Repr

namespace Logging

/-- The ranks by their names in capitals. -/
def ranks : Fields Nat := [
  ("NOTSET", 0), ("DEBUG", Level.debug.rank), ("INFO", Level.info.rank),
  ("WARN", Level.warning.rank), ("WARNING", Level.warning.rank), ("ERROR", Level.error.rank),
  ("CRITICAL", Level.critical.rank), ("FATAL", Level.critical.rank)]

/-- Names in capitals that a log gives to other things than levels. -/
def otherNames : List Text := ["BASIC_FORMAT", "_STYLES"]

/-- **The rank a level's name stands for**, in any case and in any letters of
which these are the capitals. An unknown name stands for a warning; the name of
something else is malformed. -/
def rankOf (name : Text) : Outcome Nat :=
  let capitals := inCapitals name
  if otherNames.contains capitals then .error .malformed
  else .ok ((Fields.get? ranks capitals).getD Level.warning.rank)

example : rankOf "crıtical" = .ok Level.critical.rank := rfl

/-- A log at a level. -/
def atLevel (level : Level) : Logging := ⟨level.rank, []⟩

/-- A log at the level of a name. -/
def atNamed (name : Text) : Outcome Logging :=
  (rankOf name).map (⟨·, []⟩)

/-- The fields of another invocation. -/
def bind (l : Logging) (fields : Fields Json) : Logging :=
  { l with bound := fields }

/-- Fields put over others. -/
def layered (under top : Fields Json) : Fields Json :=
  top.foldl (fun fs f => Fields.set fs f.1 f.2) under

/-- A name that no line can have a field of. -/
def isTaken (name : Text) : Bool :=
  name == "event" || name == "self"

/-- A name that no line that is written can have a field of. -/
def isTakenInWriting (name : Text) : Bool :=
  name == "method_name"

/-- The field that is for the writing alone. -/
def hiddenField : Text := "stack_info"

/-- The document of a line. -/
def document (l : Logging) (entry : LogLine) : Fields Json :=
  let named : Fields Json := [("component", .str entry.component)]
  let last : Fields Json := [("event", .str entry.event), ("level", .str entry.level.name)]
  Fields.erase (layered l.bound (named ++ entry.fields ++ last)) hiddenField

/-- **The document of a line**, if it is written. -/
def write (l : Logging) (entry : LogLine) : Outcome (Option (Fields Json)) :=
  let names := Fields.names entry.fields
  if names.any isTaken then .error .malformed
  else if entry.level.rank < l.threshold then .ok none
  else if names.any isTakenInWriting then .error .malformed
  else .ok (some (l.document entry))

end Logging
end Rollout
