import Rollout.Api.Request
import Rollout.Event.Stream

/-!
# Events off a watch

A feed hands out the events of a watch one at a time. It closes for good:
at the end of the watch, at the first object that is no event, when the
client has waited too long, on a refusal, and when it is told to stop. The
watch behind it is stopped the moment the feed closes and not again, since a
watch that is asked once more would be opened anew. A delivery that is none
breaks the feed and leaves the watch to be stopped by the one who waits.
-/

namespace Rollout
namespace Api

/-- What is left of a watch, and whether it has been stopped. -/
structure Feed where
  pending : List Delivery
  stopped : Bool
deriving Repr

namespace Feed

/-- A feed on a watch that was just opened. -/
def opened (deliveries : List Delivery) : Feed := ⟨deliveries, false⟩

/-- What one asking came to: the turn, the feed afterwards, and whether the
watch was stopped on the way. -/
structure Pull where
  turn : Turn
  feed : Feed
  stops : Bool
deriving Repr

/-- A turn that leaves the feed open. -/
def passing (interrupted : Bool) (arrival : Arrival) (rest : List Delivery) : Pull :=
  ⟨⟨interrupted, arrival, []⟩, ⟨rest, false⟩, false⟩

/-- A turn that closes the feed and stops the watch. -/
def closing (interrupted : Bool) (arrival : Arrival) (notes : List Note) (rest : List Delivery) :
    Pull :=
  ⟨⟨interrupted, arrival, notes⟩, ⟨rest, true⟩, true⟩

/-- The client has waited too long. -/
def timeoutNote : Note := .log ⟨"backend.kubernetes", "event_watch_timed_out", .debug, []⟩

/-- What a delivery comes to. -/
def take (rest : List Delivery) : Delivery → Pull
  | .object value interrupted =>
    match Event.ofJson? value with
    | some e => passing interrupted (.event e) rest
    | none => closing interrupted .closed [] rest
  | .silence => passing true .never rest
  | .refused status reason =>
    closing false (.failed (.refused .watchEvents status reason)) [] rest
  | .timedOut => closing false .closed [timeoutNote] rest
  | .malformed => passing false .broken rest

/-- **One asking for the next event.** -/
def next (f : Feed) : Pull :=
  if f.stopped then ⟨⟨false, .closed, []⟩, f, false⟩
  else
    match f.pending with
    | [] => closing false .closed [] []
    | d :: rest => take rest d

/-- **Stopping**: the feed afterwards, and whether the watch was stopped by
it. -/
def stop (f : Feed) : Feed × Bool :=
  ({ f with stopped := true }, !f.stopped)

/-- The turns of a feed whose watch still has these deliveries, up to the
one that closes it. -/
def turns : List Delivery → Script
  | [] => [(closing false .closed [] []).turn]
  | d :: rest =>
    let p := take rest d
    p.turn :: if p.feed.stopped then [] else turns rest

/-- **One asking as calls to the API**: the watch is stopped when the feed
closes. -/
def pull (f : Feed) : Talk (Arrival × Feed) := do
  let p := f.next
  Program.notes p.turn.notes
  if p.stops then
    .ask .stopWatch fun
      | .ok () => return (p.turn.arrival, p.feed)
      | .error _ => .done (.error .malformed)
  else
    match p.turn.arrival with
    | .broken => .done (.error .malformed)
    | arrival => return (arrival, p.feed)

/-- The events up to the end of the feed, in at most `n` askings. -/
def drain : Nat → Feed → Talk (List Event)
  | 0, _ => return []
  | n + 1, f => do
    let (a, f) ← f.pull
    match a with
    | .event e => return e :: (← drain n f)
    | .failed e => Program.fail (.backend e)
    | _ => return []

/-- **All events of a feed.** A delivery is asked for once and the end once,
so the askings are counted. -/
def events (f : Feed) : Talk (List Event) :=
  drain (f.pending.length + 1) f

end Feed
end Api
end Rollout
