import Rollout.Json.Shape

/-!
# Events

The cluster reports what happens in a namespace as events, each with a
reason, a message and the object it is about.
-/

namespace Rollout

/-- **An event.** -/
structure Event where
  reason : Text
  message : Text
  involvedKind : Text
  involvedName : Text
deriving DecidableEq, Repr, Inhabited

namespace Event

/-- The event an object is; none if it is about no object. -/
def ofFields? (raw : Fields Json) : Option Event :=
  match Fields.get? raw "involvedObject" with
  | some (.obj involved) => some {
      reason := ((Fields.given? raw "reason").getD (.str "")).text
      message := ((Fields.given? raw "message").getD (.str "")).text
      involvedKind := Fields.textAt involved "kind"
      involvedName := Fields.textAt involved "name" }
  | _ => none

/-- The event a value is. -/
def ofJson? : Json → Option Event
  | .obj raw => ofFields? raw
  | _ => none

end Event
end Rollout
