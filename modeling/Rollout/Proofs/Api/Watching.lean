import Rollout.Api.Adapter
import Rollout.Proofs.Api.Feed
import Rollout.Proofs.Program.Run
import Rollout.Rollback.Watch

/-!
# Waiting on a feed

The wait for the end of a rollback decides by the turns of a watch where it ends, and stops
the watch once: before it notes down that the stream has closed, or behind everything else.
Nobody would wait like that. One asks a feed for the next event, looks at it and asks again,
and tells the feed to stop in the end, whatever has happened (`Api.Feed.awaitEnding`). The
feed in turn stops its watch when it closes, and has nothing left to stop when it is told to.

Both make the same calls (`Api.talk_watch`). So the wait may be followed by the turns of the
watch alone, and a feed that closes on its own while somebody waits on it is not stopped
twice (`Api.Feed.questionsOf_of_path_awaitEnding`).
-/

namespace Rollout

open Program (Path Step path_ask_iff path_done_iff path_notes_bind_iff questionsOf)
open Rollback (Wait closedEarly endNotes givenUp ignoredNote wait)

namespace Api
namespace Feed

/-! ## The wait on a feed -/

/-- The watch behind a feed is stopped. -/
def stopWatch : Talk Unit :=
  .ask .stopWatch fun a => .done (expected a)

/-- What an asking does to the watch. -/
def Pull.settle (p : Pull) : Talk Unit :=
  if p.stops then stopWatch else return ()

/-- **The feed is told to stop.** -/
def halt (f : Feed) : Talk Unit :=
  if f.stop.2 then stopWatch else return ()

/-- The feed is told to stop, and then comes the end. -/
def leave {α : Type} (f : Feed) (r : Outcome α) : Talk α := do
  f.halt
  .done r

section Taken

variable {value : Json} {interrupted : Bool} {rest : List Delivery}

theorem next_opened_cons (d : Delivery) : (opened (d :: rest)).next = take rest d :=
  if_neg nofun

theorem take_of_event {e : Event} (h : Event.ofJson? value = some e) :
    take rest (.object value interrupted) = passing interrupted (.event e) rest := by
  rw [take, h]

theorem take_of_none (h : Event.ofJson? value = none) :
    take rest (.object value interrupted) = closing interrupted .closed [] rest := by
  rw [take, h]

theorem turns_cons_of_event {e : Event} (h : Event.ofJson? value = some e) :
    turns (.object value interrupted :: rest) = ⟨interrupted, .event e, []⟩ :: turns rest := by
  rw [turns, take_of_event h]
  rfl

theorem turns_cons_of_none (h : Event.ofJson? value = none) :
    turns (.object value interrupted :: rest) = [⟨interrupted, .closed, []⟩] := by
  rw [turns, take_of_none h]
  rfl

end Taken

/-- An event that arrives leaves fewer deliveries. -/
theorem length_pending_next_lt {f : Feed} {e : Event} (h : f.next.turn.arrival = .event e) :
    f.next.feed.pending.length < f.pending.length := by
  obtain ⟨pending, stopped⟩ := f
  cases stopped with
  | true => cases h
  | false =>
    cases pending with
    | nil => cases h
    | cons d rest =>
      rw [next, if_neg nofun, (take_eq rest d).2.1]
      exact Nat.lt_succ_self _

/-- **The wait on a feed**: it is asked for one event after the other, and told to stop
whatever happens. -/
def awaitEnding (cancelled : Bool) (f : Feed) : Talk Ending :=
  if cancelled then do
    Program.notes [givenUp]
    f.leave (.ok .unknown)
  else do
    Program.notes f.next.turn.notes
    f.next.settle
    match _h : f.next.turn.arrival with
    | .event e =>
      match Ending.ofEvent? e with
      | some ending => do
        Program.notes (endNotes e)
        f.next.feed.leave (.ok ending)
      | none => do
        Program.notes [ignoredNote e]
        awaitEnding f.next.turn.interrupted f.next.feed
    | .closed => do
      Program.notes [closedEarly]
      f.next.feed.leave (.ok .unknown)
    | .failed e => f.next.feed.leave (Outcome.fail (.backend e))
    | .broken => f.next.feed.leave (.error .malformed)
    | .never => do
      Program.notes [givenUp]
      f.next.feed.leave (.ok .unknown)
termination_by f.pending.length
decreasing_by exact length_pending_next_lt ‹_›

end Feed

/-! ## The same calls -/

/-- The calls of a wait that has come to something. -/
def waited (w : Wait) : Talk Ending := do
  Program.notes w.notes
  Feed.stopWatch
  Program.notes w.afterwards
  .done w.result

theorem talk_awaitEnding (seconds : Int) (cancelled : Bool) (script : Script) :
    talk seconds (Rollback.awaitEnding cancelled script) = waited (wait cancelled script) := by
  unfold talk Rollback.awaitEnding
  rw [Program.through_notes_bind, Program.through_bind, Program.through_notes_bind]
  rfl

/-- What is noted down of a turn comes before the rest. -/
theorem waited_after (w : Wait) (turn : Turn) (ns : List Note) :
    waited (w.after turn ns)
      = (Program.notes turn.notes >>= fun _ => Program.notes ns >>= fun _ => waited w) := by
  show (Program.notes (turn.notes ++ ns ++ w.notes) >>= _) = _
  rw [Program.notes_append_bind, Program.notes_append_bind]
  rfl

/-- **The wait by turns is the wait on the feed**, one delivery after the other. -/
theorem waited_wait_turns (cancelled : Bool) (deliveries : List Delivery) :
    waited (wait cancelled (Feed.turns deliveries))
      = (Feed.opened deliveries).awaitEnding cancelled := by
  induction deliveries generalizing cancelled with
  | nil =>
    rw [Feed.awaitEnding]
    cases cancelled <;> rfl
  | cons d deliveries ih =>
    rw [Feed.awaitEnding]
    cases cancelled with
    | true => rfl
    | false =>
      cases d with
      | object value interrupted =>
        cases he : Event.ofJson? value with
        | none =>
          rw [Feed.next_opened_cons, Feed.take_of_none he, Feed.turns_cons_of_none he]
          rfl
        | some e =>
          rw [Feed.next_opened_cons, Feed.take_of_event he, Feed.turns_cons_of_event he, wait]
          cases hend : Ending.ofEvent? e with
          | some ending =>
            simp only [Feed.passing, hend, waited_after]
            rfl
          | none =>
            -- the feed that is left is the one on the deliveries that are left
            simp only [Feed.passing, hend, waited_after, ih]
            rfl
      | silence => rfl
      | refused status reason => rfl
      | timedOut => rfl
      | malformed => rfl

/-- **A watch that is opened and waited on by turns** makes the calls of a feed that is
opened and waited on. -/
theorem talk_watch (seconds : Int) (space watermark : Text) (cancelled : Bool) :
    talk seconds (Backend.watchEvents space watermark >>= Rollback.awaitEnding cancelled)
      = openFeed seconds space watermark >>= Feed.awaitEnding cancelled := by
  show Program.ask _ _ = Program.ask _ _
  congr 1
  funext a
  cases a with
  | error e => rfl
  | ok deliveries =>
    exact (talk_awaitEnding seconds cancelled _).trans (waited_wait_turns cancelled deliveries)

/-- **A wait on a feed stops the watch once**, unless that has been done before. -/
theorem Feed.questionsOf_of_path_awaitEnding {f : Feed} {cancelled : Bool}
    {t : List (Step Call Call.Answer)} {r : Outcome Ending}
    (h : Path (f.awaitEnding cancelled) t r) :
    questionsOf t = if f.stopped then [] else [.stopWatch] := by
  obtain ⟨pending, stopped⟩ := f
  cases stopped with
  | true =>
    -- a closed feed tells that it has closed, and has nothing to stop
    have hquiet : ∃ ns r', Feed.awaitEnding cancelled ⟨pending, true⟩
        = (Program.notes ns >>= fun _ => .done r') := by
      rw [awaitEnding]
      cases cancelled with
      | true => exact ⟨_, _, rfl⟩
      | false => exact ⟨[closedEarly], _, rfl⟩
    obtain ⟨ns, r', heq⟩ := hquiet
    rw [heq] at h
    obtain ⟨t', rfl, hend⟩ := path_notes_bind_iff.mp h
    obtain ⟨rfl, rfl⟩ := path_done_iff.mp hend
    simp
  | false =>
    have hcalls := waited_wait_turns cancelled pending
    rw [opened] at hcalls
    rw [← hcalls] at h
    obtain ⟨t₁, rfl, hstop⟩ := path_notes_bind_iff.mp h
    obtain ⟨a, t₂, rfl, hrest⟩ := path_ask_iff.mp hstop
    cases a with
    | error e =>
      obtain ⟨rfl, rfl⟩ := path_done_iff.mp hrest
      simp
    | ok =>
      obtain ⟨t₃, rfl, hend⟩ := path_notes_bind_iff.mp hrest
      obtain ⟨rfl, rfl⟩ := path_done_iff.mp hend
      simp

end Api
end Rollout
