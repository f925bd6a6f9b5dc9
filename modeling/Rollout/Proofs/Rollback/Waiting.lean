import Rollout.Proofs.Rollback.Verdict

/-!
# Where a wait stops

The wait for the end of a rollback goes on as long as nothing stops it, and several things
can: the caller has given up before another item is asked for, the stream has closed,
fails, breaks or delivers nothing any more, or an event tells the end. An item that has not
come when the caller gives up is one that never comes. What stops a wait at a point of the
stream is said of that point alone (`Rollback.StopsAt`), without following the wait.

The wait stops at the first point where it can
(`Rollback.wait_stops_at_first`), and all the rest follows from what stops it there: the
result, how many items were asked for, and what is counted. The event that tells the end
counts even where the caller gives up in the very turn that delivers it, since whether the
caller has given up is looked at before an item is asked for, and not behind it. However
the wait ends, the watch is stopped once.
-/

namespace Rollout

open Program (Path Step path_ask_iff path_done_iff path_notes_bind_iff questionsOf)

/-- What is counted among some notes. -/
def counted (ns : List Note) : List Counter :=
  ns.filterMap fun
    | .count c => some c
    | .log _ => none

@[simp] theorem counted_append (ns ns' : List Note) :
    counted (ns ++ ns') = counted ns ++ counted ns' :=
  List.filterMap_append

/-- What a step notes down. -/
def Program.Step.note? {Q : Type} {A : Q → Type} : Step Q A → Option Note
  | noted n => some n
  | asked _ _ => none

@[simp] theorem Program.filterMap_note?_noted {Q : Type} {A : Q → Type} (ns : List Note) :
    (ns.map (Step.noted (A := A))).filterMap Step.note? = ns := by
  rw [List.filterMap_map]
  exact List.filterMap_some

namespace Ending

/-- **The reasons of the events that tell the end of a rollback.** -/
def reasons : List Text := doneReason :: skipReasons

/-- **What an event tells** depends on its reason, and on its message if nothing was
done. -/
theorem ofEvent?_eq_some_iff {e : Event} {ending : Ending} :
    ofEvent? e = some ending ↔
      e.reason = doneReason ∧ ending = succeeded
        ∨ e.reason ∈ skipReasons ∧ ending = skipped (e.reason ++ ": " ++ e.message) := by
  unfold ofEvent?
  by_cases hdone : e.reason = doneReason
  · -- what is done is not skipped
    have hskip : e.reason ∉ skipReasons := by
      rw [hdone]
      decide
    rw [if_pos hdone]
    constructor
    · intro h
      exact .inl ⟨hdone, (Option.some.inj h).symm⟩
    · rintro (⟨-, rfl⟩ | ⟨h, -⟩)
      · rfl
      · exact absurd h hskip
  · rw [if_neg hdone]
    split
    · rename_i hskip
      constructor
      · intro h
        exact .inr ⟨List.contains_iff_mem.mp hskip, (Option.some.inj h).symm⟩
      · rintro (⟨h, -⟩ | ⟨-, rfl⟩)
        · exact absurd h hdone
        · rfl
    · rename_i hskip
      constructor
      · exact nofun
      · rintro (⟨h, -⟩ | ⟨h, -⟩)
        · exact absurd h hdone
        · exact absurd (List.contains_iff_mem.mpr h) hskip

/-- **An event tells nothing** if its reason is none of them. -/
theorem ofEvent?_eq_none_iff {e : Event} : ofEvent? e = none ↔ e.reason ∉ reasons := by
  rw [Option.eq_none_iff_forall_ne_some, reasons, List.mem_cons, not_or]
  constructor
  · intro h
    exact ⟨fun hdone => h _ (ofEvent?_eq_some_iff.mpr (.inl ⟨hdone, rfl⟩)),
      fun hskip => h _ (ofEvent?_eq_some_iff.mpr (.inr ⟨hskip, rfl⟩))⟩
  · rintro ⟨hdone, hskip⟩ ending h
    obtain ⟨h, -⟩ | ⟨h, -⟩ := ofEvent?_eq_some_iff.mp h
    · exact hdone h
    · exact hskip h

/-- What an event tells, it tells by its reason. -/
theorem mem_reasons_of_ofEvent? {e : Event} {ending : Ending} (h : ofEvent? e = some ending) :
    e.reason ∈ reasons := by
  refine Decidable.byContradiction fun hreason => ?_
  cases (ofEvent?_eq_none_iff.mpr hreason).symm.trans h

end Ending

namespace Rollback

/-! ## What stops a wait -/

/-- **What stops a wait.** -/
inductive Stop where
  /-- The caller has given up before another item is asked for. -/
  | givenUp
  /-- There is no item any more. -/
  | exhausted
  /-- The stream says that it has closed. -/
  | closed
  /-- The stream fails. -/
  | failed (e : BackendError)
  /-- What comes cannot be dealt with. -/
  | broken
  /-- Nothing comes until the caller gives up. -/
  | silent
  /-- An event tells the end. -/
  | told (e : Event) (ending : Ending)

namespace Stop

/-- What the wait comes to. -/
def result : Stop → Outcome Ending
  | failed e => Outcome.fail (.backend e)
  | broken => .error .malformed
  | told _ ending => .ok ending
  | _ => .ok .unknown

/-- How many items are asked for and answered in the end. -/
def turns : Stop → Nat
  | givenUp => 0
  | exhausted => 0
  | _ => 1

/-- What is counted in the end. -/
def counted : Stop → List Counter
  | told e _ => [.rollbackEvents e.reason]
  | _ => []

end Stop

/-- An event that is passed over is not counted. -/
theorem counted_ignoredNote (e : Event) : Rollout.counted [ignoredNote e] = [] := rfl

/-- The caller has given up at some time before another item is asked for. -/
def HasGivenUp (cancelled : Bool) (passed : Script) : Prop :=
  cancelled = true ∨ ∃ t ∈ passed, t.interrupted = true

/-- **What stops a wait at a point of the stream**: behind the turns that have passed, and
before those that are left. -/
inductive StopsAt (cancelled : Bool) (passed : Script) : Script → Stop → Prop where
  | givenUp (left : Script) : HasGivenUp cancelled passed → StopsAt cancelled passed left .givenUp
  | exhausted : ¬ HasGivenUp cancelled passed → StopsAt cancelled passed [] .exhausted
  | closed {turn : Turn} {left : Script} : ¬ HasGivenUp cancelled passed →
      turn.arrival = .closed → StopsAt cancelled passed (turn :: left) .closed
  | failed {turn : Turn} {left : Script} {e : BackendError} : ¬ HasGivenUp cancelled passed →
      turn.arrival = .failed e → StopsAt cancelled passed (turn :: left) (.failed e)
  | broken {turn : Turn} {left : Script} : ¬ HasGivenUp cancelled passed →
      turn.arrival = .broken → StopsAt cancelled passed (turn :: left) .broken
  | silent {turn : Turn} {left : Script} : ¬ HasGivenUp cancelled passed →
      turn.arrival = .never → StopsAt cancelled passed (turn :: left) .silent
  | told {turn : Turn} {left : Script} {e : Event} {ending : Ending} :
      ¬ HasGivenUp cancelled passed → turn.arrival = .event e → e.reason ∈ Ending.reasons →
      Ending.ofEvent? e = some ending → StopsAt cancelled passed (turn :: left) (.told e ending)

/-- **The first point where a wait stops.** -/
structure StopsFirstAt (cancelled : Bool) (passed left : Script) (stop : Stop) : Prop where
  here : StopsAt cancelled passed left stop
  notBefore : ∀ earlier later other, passed = earlier ++ later → later ≠ [] →
    ¬ StopsAt cancelled earlier (later ++ left) other

section Points

variable {cancelled cancelled' : Bool} {passed passed' left : Script} {stop : Stop}

/-- Only whether the caller has given up is looked at in what has passed. -/
theorem StopsAt.congr (h : StopsAt cancelled passed left stop)
    (hiff : HasGivenUp cancelled passed ↔ HasGivenUp cancelled' passed') :
    StopsAt cancelled' passed' left stop := by
  cases h with
  | givenUp _ h => exact .givenUp _ (hiff.mp h)
  | exhausted h => exact .exhausted (mt hiff.mpr h)
  | closed h ha => exact .closed (mt hiff.mpr h) ha
  | failed h ha => exact .failed (mt hiff.mpr h) ha
  | broken h ha => exact .broken (mt hiff.mpr h) ha
  | silent h ha => exact .silent (mt hiff.mpr h) ha
  | told h ha hreason he => exact .told (mt hiff.mpr h) ha hreason he

/-- Who gives up in a turn has given up behind it. -/
theorem hasGivenUp_cons_iff {turn : Turn} :
    HasGivenUp false (turn :: passed) ↔ HasGivenUp turn.interrupted passed := by
  simp [HasGivenUp]

theorem not_hasGivenUp_nil : ¬ HasGivenUp false [] := by
  simp [HasGivenUp]

/-- **An event that tells nothing stops nobody** who has not given up. -/
theorem not_stopsAt_of_event {turn : Turn} {e : Event} (ha : turn.arrival = .event e)
    (he : Ending.ofEvent? e = none) (hgoing : ¬ HasGivenUp cancelled passed) :
    ¬ StopsAt cancelled passed (turn :: left) stop := by
  intro h
  cases h with
  | givenUp _ h => exact hgoing h
  | told _ ha' _ he' =>
    cases ha.symm.trans ha'
    cases he.symm.trans he'
  | closed _ ha' => cases ha.symm.trans ha'
  | failed _ ha' => cases ha.symm.trans ha'
  | broken _ ha' => cases ha.symm.trans ha'
  | silent _ ha' => cases ha.symm.trans ha'

/-- Where nothing has passed, nothing is before. -/
theorem StopsAt.first (h : StopsAt cancelled [] left stop) : StopsFirstAt cancelled [] left stop where
  here := h
  notBefore earlier later other heq hne := by
    obtain ⟨-, rfl⟩ := List.append_eq_nil_iff.mp heq.symm
    exact absurd rfl hne

/-- **An event that tells nothing is passed over**: the wait stops where it does for
somebody who starts behind it. -/
theorem StopsFirstAt.cons {turn : Turn} {e : Event} (ha : turn.arrival = .event e)
    (he : Ending.ofEvent? e = none) (h : StopsFirstAt turn.interrupted passed left stop) :
    StopsFirstAt false (turn :: passed) left stop where
  here := h.here.congr hasGivenUp_cons_iff.symm
  notBefore earlier later other heq hne := by
    cases earlier with
    | nil =>
      obtain rfl : turn :: passed = later := heq
      exact not_stopsAt_of_event ha he not_hasGivenUp_nil
    | cons t earlier =>
      obtain ⟨rfl, rfl⟩ := List.cons.inj heq
      intro hother
      exact h.notBefore earlier later other rfl hne (hother.congr hasGivenUp_cons_iff)

/-- **What has passed is ignored**: every turn brought an event with another reason. -/
theorem StopsFirstAt.ignored (h : StopsFirstAt cancelled passed left stop) :
    ∀ turn ∈ passed, ∃ e, turn.arrival = .event e ∧ e.reason ∉ Ending.reasons := by
  intro turn hturn
  obtain ⟨earlier, later, rfl⟩ := List.append_of_mem hturn
  have hnone : ∀ other, ¬ StopsAt cancelled earlier (turn :: (later ++ left)) other := fun other =>
    h.notBefore earlier (turn :: later) other rfl (List.cons_ne_nil _ _)
  have hgoing : ¬ HasGivenUp cancelled earlier := fun hgone => hnone _ (.givenUp _ hgone)
  cases ha : turn.arrival with
  | event e =>
    refine ⟨e, rfl, fun hreason => ?_⟩
    obtain ⟨ending, he⟩ := Option.ne_none_iff_exists'.mp
      fun hno => Ending.ofEvent?_eq_none_iff.mp hno hreason
    exact hnone _ (.told hgoing ha hreason he)
  | closed => exact absurd (.closed hgoing ha) (hnone _)
  | failed e => exact absurd (.failed hgoing ha) (hnone _)
  | broken => exact absurd (.broken hgoing ha) (hnone _)
  | never => exact absurd (.silent hgoing ha) (hnone _)

end Points

/-! ## The wait -/

/-- **The wait is stopped by this** at this point: what it comes to, how many turns it takes
and what it counts depends on nothing behind. -/
structure Wait.IsStoppedBy (cancelled : Bool) (passed left : Script) (stop : Stop) (w : Wait) :
    Prop where
  result : w.result = stop.result
  taken : w.taken = passed.length + stop.turns
  counted : counted w.notes
    = (passed ++ left.take stop.turns).flatMap (fun t => Rollout.counted t.notes) ++ stop.counted
  quiet : Rollout.counted w.afterwards = []
  unasked : stop ≠ .exhausted → ∀ more,
    wait cancelled (passed ++ left.take stop.turns ++ more) = w

section Wait

variable {cancelled : Bool} {passed left : Script} {stop : Stop} {w : Wait}

/-- A turn that is passed over comes before all the rest. -/
theorem Wait.IsStoppedBy.cons {turn : Turn} {e : Event} (ha : turn.arrival = .event e)
    (he : Ending.ofEvent? e = none)
    (h : w.IsStoppedBy turn.interrupted passed left stop) :
    (w.after turn [ignoredNote e]).IsStoppedBy false (turn :: passed) left stop where
  result := h.result
  taken := by
    show w.taken + 1 = passed.length + 1 + stop.turns
    rw [h.taken, Nat.add_right_comm]
  counted := by
    show Rollout.counted (turn.notes ++ [ignoredNote e] ++ w.notes) = _
    rw [counted_append, counted_append, counted_ignoredNote, h.counted, List.append_nil,
      List.cons_append, List.flatMap_cons, List.append_assoc]
  quiet := h.quiet
  unasked hne more := by
    show wait false (turn :: (passed ++ left.take stop.turns ++ more)) = _
    rw [wait, ha]
    simp only [he]
    rw [h.unasked hne more]

/-- **A turn that ends the wait** is the first point where it can stop, and the last turn
that is taken, whatever is left behind it. -/
theorem exists_stop_of_turn {turn : Turn} {script : Script} {ns : List Note}
    (hstop : StopsAt false [] (turn :: script) stop)
    (hw : ∀ left, wait false (turn :: left) = w.after turn ns) (hturns : stop.turns = 1)
    (hresult : w.result = stop.result) (htaken : w.taken = 0)
    (hcounted : Rollout.counted (ns ++ w.notes) = stop.counted)
    (hquiet : Rollout.counted w.afterwards = []) :
    ∃ passed left stop, turn :: script = passed ++ left ∧ StopsFirstAt false passed left stop
      ∧ (wait false (turn :: script)).IsStoppedBy false passed left stop := by
  have htake : (turn :: script).take stop.turns = [turn] := by
    rw [hturns]
    rfl
  refine ⟨[], turn :: script, stop, rfl, hstop.first, ?_⟩
  rw [hw]
  refine ⟨hresult, ?_, ?_, hquiet, fun _ more => ?_⟩
  · show w.taken + 1 = 0 + stop.turns
    rw [htaken, hturns]
  · show Rollout.counted (turn.notes ++ ns ++ w.notes) = _
    rw [htake, List.append_assoc, counted_append, hcounted, List.nil_append,
      List.flatMap_singleton]
  · rw [htake]
    exact hw more

/-- **The wait stops at the first point where it can.** -/
theorem exists_stop (cancelled : Bool) (script : Script) :
    ∃ passed left stop, script = passed ++ left ∧ StopsFirstAt cancelled passed left stop
      ∧ (wait cancelled script).IsStoppedBy cancelled passed left stop := by
  induction script generalizing cancelled with
  | nil =>
    cases cancelled with
    | true =>
      exact ⟨[], [], .givenUp, rfl, (StopsAt.givenUp [] (.inl rfl)).first, rfl, rfl, rfl,
        rfl, fun _ _ => by rw [wait, wait]⟩
    | false =>
      exact ⟨[], [], .exhausted, rfl, (StopsAt.exhausted not_hasGivenUp_nil).first, rfl, rfl, rfl,
        rfl, fun hne => absurd rfl hne⟩
  | cons turn script ih =>
    cases cancelled with
    | true =>
      exact ⟨[], turn :: script, .givenUp, rfl, (StopsAt.givenUp _ (.inl rfl)).first, rfl, rfl, rfl,
        rfl, fun _ _ => by rw [wait, wait]⟩
    | false =>
      -- nobody has given up, so that what arrives decides
      cases ha : turn.arrival with
      | closed =>
        exact exists_stop_of_turn (.closed not_hasGivenUp_nil ha) (fun _ => by rw [wait, ha])
          rfl rfl rfl rfl rfl
      | failed e =>
        exact exists_stop_of_turn (.failed not_hasGivenUp_nil ha) (fun _ => by rw [wait, ha])
          rfl rfl rfl rfl rfl
      | broken =>
        exact exists_stop_of_turn (.broken not_hasGivenUp_nil ha) (fun _ => by rw [wait, ha])
          rfl rfl rfl rfl rfl
      | never =>
        exact exists_stop_of_turn (.silent not_hasGivenUp_nil ha) (fun _ => by rw [wait, ha])
          rfl rfl rfl rfl rfl
      | event e =>
        cases he : Ending.ofEvent? e with
        | some ending =>
          have hw : ∀ left, wait false (turn :: left)
              = (Wait.ended (.ok ending) []).after turn (endNotes e) := by
            intro left
            rw [wait, ha]
            simp only [he]
          exact exists_stop_of_turn
            (.told not_hasGivenUp_nil ha (Ending.mem_reasons_of_ofEvent? he) he) hw
            rfl rfl rfl rfl rfl
        | none =>
          obtain ⟨passed, left, stop, rfl, hfirst, hstopped⟩ := ih turn.interrupted
          have hw : wait false (turn :: (passed ++ left))
              = (wait turn.interrupted (passed ++ left)).after turn [ignoredNote e] := by
            rw [wait, ha]
            simp only [he]
          exact ⟨turn :: passed, left, stop, rfl, hfirst.cons ha he, hw ▸ hstopped.cons ha he⟩

end Wait

/-! ## The program that waits -/

/-- **The program that waits** notes down what the wait does, stops the watch and ends as
the wait did. If the watch cannot be stopped, it ends with that. -/
theorem path_awaitEnding {cancelled : Bool} {script : Script}
    {t : List (Step Backend.Request Backend.Request.Answer)} {r : Outcome Ending}
    (h : Path (awaitEnding cancelled script) t r) :
    ∃ (stopped : Outcome Unit) (behind : List Note),
      t = (wait cancelled script).notes.map .noted
          ++ .asked .stopWatch stopped :: behind.map .noted
        ∧ (behind = (wait cancelled script).afterwards ∨ behind = [])
        ∧ r = (stopped >>= fun _ => (wait cancelled script).result) := by
  obtain ⟨t₁, rfl, hstop⟩ := path_notes_bind_iff.mp h
  obtain ⟨stopped, t₂, rfl, hrest⟩ := path_ask_iff.mp hstop
  cases stopped with
  | error e =>
    obtain ⟨rfl, rfl⟩ := path_done_iff.mp hrest
    exact ⟨.error e, [], rfl, .inr rfl, rfl⟩
  | ok =>
    obtain ⟨t₃, rfl, hend⟩ := path_notes_bind_iff.mp hrest
    obtain ⟨rfl, rfl⟩ := path_done_iff.mp hend
    exact ⟨.ok (), _, by rw [List.append_nil], .inl rfl, rfl⟩

/-- **The wait for the end of a rollback stops at the first point where it can**, and
ignores the events before it. What stops it there decides the rest: no turn is taken
behind it, and what may come there changes nothing; whatever the watch answers, it is
stopped once and nothing else is asked, the wait comes to what stopped it unless the watch
cannot be stopped, and beside what the stream itself notes down it counts the reason of
the event that told the end, if there is one. -/
theorem wait_stops_at_first (cancelled : Bool) (script : Script) :
    Ending.unknown.message = ""
    ∧ ∃ passed left stop, script = passed ++ left
      ∧ StopsFirstAt cancelled passed left stop
      ∧ (∀ turn ∈ passed, ∃ e, turn.arrival = .event e ∧ e.reason ∉ Ending.reasons)
      ∧ (wait cancelled script).taken = passed.length + stop.turns
      ∧ (stop ≠ .exhausted → ∀ more,
          wait cancelled (passed ++ left.take stop.turns ++ more) = wait cancelled script)
      ∧ ∀ t r, Path (awaitEnding cancelled script) t r →
          questionsOf t = [.stopWatch]
          ∧ (∃ stopped, .asked .stopWatch stopped ∈ t ∧ r = (stopped >>= fun _ => stop.result))
          ∧ counted (t.filterMap Step.note?)
              = (passed ++ left.take stop.turns).flatMap (fun turn => counted turn.notes)
                ++ stop.counted := by
  obtain ⟨passed, left, stop, hscript, hfirst, hw⟩ := exists_stop cancelled script
  refine ⟨rfl, passed, left, stop, hscript, hfirst, hfirst.ignored, hw.taken, hw.unasked,
    fun t r hpath => ?_⟩
  obtain ⟨stopped, behind, rfl, hbehind, rfl⟩ := path_awaitEnding hpath
  refine ⟨?_, ⟨stopped, by simp, by rw [hw.result]⟩, ?_⟩
  · simp
  · have hquiet : counted behind = [] := by
      rcases hbehind with rfl | rfl
      · exact hw.quiet
      · rfl
    rw [List.filterMap_append, List.filterMap_cons, counted_append]
    simp only [Step.note?, Program.filterMap_note?_noted]
    rw [hw.counted, hquiet, List.append_nil]

/-- A stream that brings an event about something else, then the end in the turn in which
the caller gives up, and would break after that. -/
def lateInterrupt : Script := [
  ⟨false, .event ⟨"ScalingReplicaSet", "", Kind.deployment.name, "web"⟩, []⟩,
  ⟨true, .event ⟨Ending.doneReason, "", Kind.deployment.name, "web"⟩, []⟩,
  ⟨false, .broken, []⟩]

/-- The end counts that is told in the turn in which the caller gives up. -/
theorem wait_stops_at_first_lateInterrupt :
    ((awaitEnding false lateInterrupt).run (telling "web") ()).result = .ok .succeeded
    ∧ questionsOf ((awaitEnding false lateInterrupt).steps (telling "web") ())
        = [.stopWatch]
    ∧ ∃ passed left stop, lateInterrupt = passed ++ left
        ∧ StopsFirstAt false passed left stop := by
  obtain ⟨-, passed, left, stop, hscript, hfirst, -, -, -, hpath⟩ :=
    wait_stops_at_first false lateInterrupt
  obtain ⟨hquestions, -, -⟩ := hpath _ _ (Program.path_steps (telling "web") _ ())
  exact ⟨rfl, hquestions, passed, left, stop, hscript, hfirst⟩

end Rollback
end Rollout
