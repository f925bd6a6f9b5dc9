import Rollout.Backend
import Rollout.Rollback.Ending

/-!
# Waiting for the end of a rollback

A deployment is rolled back by the cluster, which tells the end by an event.
The wait takes one turn of the stream after the other, until an event tells
the end, the stream closes, fails or breaks, or the caller gives up. Giving up is
looked for before each turn and ends a wait for something that never comes;
an event that arrives in the very turn of the interrupt still counts.

However the wait ends, the stream is stopped once. A stream that closes is
stopped before that is noted down, any other one behind everything else.
-/

namespace Rollout
namespace Rollback

/-- What a wait came to. -/
structure Wait where
  result : Outcome Ending
  /-- What is noted down until the stream is stopped. -/
  notes : List Note
  /-- What is noted down afterwards. -/
  afterwards : List Note
  /-- How many of the stream's turns were taken. -/
  taken : Nat

/-- A line of the one who waits. -/
def watchNote (event : Text) (level : Level) (fields : Fields Json) : Note :=
  .log ⟨"rollback.watcher", event, level, fields⟩

/-- The caller has given up. -/
def givenUp : Note := watchNote "rollback_watch_cancelled" .info []

/-- The stream has closed. -/
def closedEarly : Note :=
  watchNote "rollback_watch_closed" .warning
    [("reason", .str "event stream closed before a rollback event")]

/-- What is noted down of an event that tells the end. -/
def endNotes (e : Event) : List Note := [
  .count (.rollbackEvents e.reason),
  watchNote "rollback_event" .info
    [("reason", .str e.reason), ("involved", .str e.involvedName)]]

/-- What is noted down of any other event. -/
def ignoredNote (e : Event) : Note :=
  watchNote "rollback_watch_ignored" .debug [("reason", .str e.reason)]

/-- A turn put in front of what a wait came to. -/
def Wait.after (turn : Turn) (ns : List Note) (w : Wait) : Wait :=
  { w with notes := turn.notes ++ ns ++ w.notes, taken := w.taken + 1 }

/-- A wait that ended, with what is noted down. -/
def Wait.ended (result : Outcome Ending) (ns : List Note) : Wait :=
  ⟨result, ns, [], 0⟩

/-- A wait that ended since the stream has closed. -/
def Wait.closed : Wait := ⟨.ok .unknown, [], [closedEarly], 0⟩

/-- **The wait for the end of a rollback.** `cancelled` says whether the
caller has given up before the next turn. -/
def wait : Bool → Script → Wait
  | true, _ => .ended (.ok .unknown) [givenUp]
  | false, [] => .closed
  | false, turn :: rest =>
    match turn.arrival with
    | .event e =>
      match Ending.ofEvent? e with
      | some ending => (Wait.ended (.ok ending) []).after turn (endNotes e)
      | none => (wait turn.interrupted rest).after turn [ignoredNote e]
    | .closed => Wait.closed.after turn []
    | .failed e => (Wait.ended (Outcome.fail (.backend e)) []).after turn []
    | .broken => (Wait.ended (.error .malformed) []).after turn []
    | .never => (Wait.ended (.ok .unknown) [givenUp]).after turn []

/-- The end of a rollback, taken from a stream that is stopped afterwards. -/
def awaitEnding (cancelled : Bool) (script : Script) : Backend.Talk Ending := do
  let w := wait cancelled script
  Program.notes w.notes
  Backend.stopWatch
  Program.notes w.afterwards
  .done w.result

end Rollback
end Rollout
