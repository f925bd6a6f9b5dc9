import Rollout.Event.Basic
import Rollout.Note

/-!
# Streams of events

Whoever waits for events asks for one after the other. A stream is given by
what each asking comes to, in order, together with whether the one who waits
is interrupted in that turn; a stream that has no more turns is closed.
-/

namespace Rollout

/-- **What asking for the next event comes to.** -/
inductive Arrival where
  | event (e : Event)
  /-- The stream has closed. -/
  | closed
  /-- The stream failed. -/
  | failed (e : BackendError)
  /-- Nothing comes any more; only an interrupt ends the wait. -/
  | never
  /-- What came could not be dealt with at all. -/
  | broken
deriving Repr

/-- **One asking**: whether the one who waits is interrupted just before the
arrival, what arrives, and what the stream notes down about it. -/
structure Turn where
  interrupted : Bool
  arrival : Arrival
  notes : List Note
deriving Repr

/-- What the askings of a stream come to, in order. -/
abbrev Script := List Turn

end Rollout
