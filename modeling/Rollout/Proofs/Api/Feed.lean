import Rollout.Api.Feed
import Rollout.Proofs.Program.Path

/-!
# A feed closes once and for good

A watch that is asked for more after its end is opened anew by the client, so that a feed
has to know that it is closed, and it can close in five ways: the watch ends, the client has
waited too long, the server refuses, an object comes that is no event, or the feed is told
to stop. One of them forgotten would be enough.

Whoever has a feed asks it for the next event or stops it, in any order
(`Api.Feed.Use`), and what comes of that is a list of happenings
(`Api.Feed.history`). What is true after some of them (`Api.Feed.Used`) is kept by one more,
whatever it is: the feed is closed if and only if one of them closed it, the watch was
stopped once in that case and not at all otherwise, and as long as the feed is open every
asking has taken one delivery, and told what that delivery is. All that is said of a feed
(`Api.Feed.closes_once_and_for_good`) is read off there.
-/

namespace Rollout

open Program (Path path_ask_iff path_done_iff path_notes_bind_iff questionsOf)

/-- The arrivals by which one learns that a stream has come to its end. -/
inductive Arrival.Closes : Arrival → Prop where
  | closed : Closes closed
  | failed (e : BackendError) : Closes (failed e)

namespace Api

/-- **What a delivery is to the one who asked**: an event if it is an object that is one. -/
def Delivery.arrival : Delivery → Arrival
  | object value _ => (Event.ofJson? value).elim .closed .event
  | silence => .never
  | refused status reason => .failed (.refused .watchEvents status reason)
  | timedOut => .closed
  | malformed => .broken

namespace Feed

/-! ## One asking -/

/-- **A delivery that is taken** arrives as what it is, and closes the feed and stops the
watch if that is an end. -/
theorem take_eq (rest : List Delivery) (d : Delivery) :
    (take rest d).turn.arrival = d.arrival
      ∧ (take rest d).feed = ⟨rest, (take rest d).stops⟩
      ∧ ((take rest d).stops = true ↔ d.arrival.Closes) := by
  cases d with
  | object value interrupted =>
    rw [take, Delivery.arrival]
    cases Event.ofJson? value with
    | some e => exact ⟨rfl, rfl, iff_of_false Bool.false_ne_true (by rintro ⟨⟩)⟩
    | none => exact ⟨rfl, rfl, iff_of_true rfl .closed⟩
  | silence => exact ⟨rfl, rfl, iff_of_false Bool.false_ne_true (by rintro ⟨⟩)⟩
  | refused status reason => exact ⟨rfl, rfl, iff_of_true rfl (.failed _)⟩
  | timedOut => exact ⟨rfl, rfl, iff_of_true rfl .closed⟩
  | malformed => exact ⟨rfl, rfl, iff_of_false Bool.false_ne_true (by rintro ⟨⟩)⟩

/-- What a feed on these deliveries tells next; it has closed behind the last. -/
def upcoming (deliveries : List Delivery) : Arrival :=
  deliveries.head?.elim .closed Delivery.arrival

theorem next_of_stopped {f : Feed} (h : f.stopped = true) :
    f.next = ⟨⟨false, .closed, []⟩, f, false⟩ :=
  if_pos h

/-- **An open feed** tells what comes, and stops the watch if that is an end. -/
theorem next_of_open {f : Feed} (h : f.stopped = false) :
    f.next.turn.arrival = upcoming f.pending
      ∧ f.next.feed = ⟨f.pending.tail, f.next.stops⟩
      ∧ (f.next.stops = true ↔ (upcoming f.pending).Closes) := by
  obtain ⟨pending, stopped⟩ := f
  obtain rfl : stopped = false := h
  cases pending with
  | nil => exact ⟨rfl, rfl, fun _ => .closed, fun _ => rfl⟩
  | cons d rest => exact take_eq rest d

/-- **The calls of an asking**: it stops the watch if it closes the feed, and calls nothing
otherwise; what it hands out is what came. -/
theorem path_pull {f : Feed} {t : List (Program.Step Call Call.Answer)}
    {r : Outcome (Arrival × Feed)} (h : Path f.pull t r) :
    questionsOf t = (if f.next.stops then [.stopWatch] else [])
      ∧ ∀ a g, r = .ok (a, g) → a = f.next.turn.arrival ∧ g = f.next.feed := by
  obtain ⟨t₁, rfl, hcalls⟩ := path_notes_bind_iff.mp h
  rw [Program.questionsOf_append, Program.questionsOf_map_noted, List.nil_append]
  split at hcalls
  · rename_i hstops
    rw [if_pos hstops]
    obtain ⟨answer, t₂, rfl, hend⟩ := path_ask_iff.mp hcalls
    cases answer with
    | ok =>
      obtain ⟨rfl, rfl⟩ := path_done_iff.mp hend
      refine ⟨rfl, fun a g heq => ?_⟩
      cases heq
      exact ⟨rfl, rfl⟩
    | error e =>
      obtain ⟨rfl, rfl⟩ := path_done_iff.mp hend
      exact ⟨rfl, nofun⟩
  · rename_i hstops
    rw [if_neg hstops]
    split at hcalls
    · obtain ⟨rfl, rfl⟩ := path_done_iff.mp hcalls
      exact ⟨rfl, nofun⟩
    · obtain ⟨rfl, rfl⟩ := path_done_iff.mp hcalls
      refine ⟨rfl, fun a g heq => ?_⟩
      cases heq
      exact ⟨rfl, rfl⟩

/-! ## Uses of a feed -/

/-- **What is done with a feed.** -/
inductive Use where
  /-- It is asked for the next event. -/
  | next
  /-- It is told to stop. -/
  | stop
deriving DecidableEq, Repr

/-- **What came of a use.** -/
structure Happening where
  use : Use
  before : Feed
  after : Feed
  /-- What arrived, if the feed was asked. -/
  arrival : Option Arrival
  /-- The watch was stopped. -/
  stops : Bool

/-- What comes of a use. -/
def happening (f : Feed) : Use → Happening
  | .next => ⟨.next, f, f.next.feed, some f.next.turn.arrival, f.next.stops⟩
  | .stop => ⟨.stop, f, f.stop.1, none, f.stop.2⟩

/-- **What comes of one use after the other.** -/
def history : Feed → List Use → List Happening
  | _, [] => []
  | f, u :: us => f.happening u :: history (f.happening u).after us

@[simp] theorem use_happening (f : Feed) (u : Use) : (f.happening u).use = u := by
  cases u <;> rfl

/-- There is one happening for each use. -/
@[simp] theorem map_use_history (f : Feed) (us : List Use) :
    (history f us).map (·.use) = us := by
  induction us generalizing f with
  | nil => rfl
  | cons u us ih => rw [history, List.map_cons, use_happening, ih]

/-- **The feed is closed from there on**: it was told to stop, or told that it has come to
its end. -/
def Happening.Closes (x : Happening) : Prop :=
  x.use = .stop ∨ ∃ a, x.arrival = some a ∧ a.Closes

section Uses

variable {f : Feed} {u : Use}

/-- **A feed that was closed** is left as it is, whatever is done with it. -/
theorem happening_of_stopped (h : f.stopped = true) :
    (f.happening u).after = f ∧ (f.happening u).stops = false
      ∧ (u = .next → (f.happening u).arrival = some .closed) := by
  cases u with
  | next =>
    rw [happening, next_of_stopped h]
    exact ⟨rfl, rfl, fun _ => rfl⟩
  | stop =>
    obtain ⟨pending, stopped⟩ := f
    obtain rfl : stopped = true := h
    exact ⟨rfl, rfl, nofun⟩

/-- **An open feed** is closed by what closes it, and stops the watch then. -/
theorem happening_of_open (h : f.stopped = false) :
    (f.happening u).after.stopped = (f.happening u).stops
      ∧ ((f.happening u).stops = true ↔ (f.happening u).Closes)
      ∧ (u = .next → (f.happening u).arrival = some (upcoming f.pending)
          ∧ (f.happening u).after.pending = f.pending.tail) := by
  cases u with
  | next =>
    obtain ⟨harrival, hfeed, hstops⟩ := next_of_open h
    refine ⟨by rw [happening, hfeed], ?_, fun _ => ⟨by rw [happening, harrival],
      by rw [happening, hfeed]⟩⟩
    rw [happening, hstops, ← harrival]
    simp [Happening.Closes]
  | stop =>
    obtain ⟨pending, stopped⟩ := f
    obtain rfl : stopped = false := h
    exact ⟨rfl, ⟨fun _ => .inl rfl, fun _ => rfl⟩, nofun⟩

end Uses

/-! ## What is true all the time -/

/-- **What is true of a feed after some uses.** -/
structure Used (deliveries : List Delivery) (past : List Happening) (f : Feed) : Prop where
  closed_iff : f.stopped = true ↔ ∃ x ∈ past, x.Closes
  stops : (past.filter (·.stops)).length = if f.stopped then 1 else 0
  pending : f.stopped = false → f.pending = deliveries.drop past.length
  arrived : f.stopped = false →
    past.filterMap (·.arrival) = (deliveries.take past.length).map Delivery.arrival

section Used

variable {deliveries : List Delivery} {past : List Happening} {f : Feed}

theorem used_opened (deliveries : List Delivery) : Used deliveries [] (opened deliveries) where
  closed_iff := ⟨nofun, fun ⟨_, h, _⟩ => absurd h List.not_mem_nil⟩
  stops := rfl
  pending _ := List.drop_zero.symm
  arrived _ := rfl

theorem upcoming_drop (n : Nat) :
    upcoming (deliveries.drop n) = deliveries[n]?.elim .closed Delivery.arrival := by
  rw [upcoming, List.head?_drop]

/-- **One more use keeps it.** -/
theorem Used.happening (h : Used deliveries past f) (u : Use) :
    Used deliveries (past ++ [f.happening u]) (f.happening u).after := by
  by_cases hf : f.stopped = true
  · -- a closed feed stays as it is, and nothing is stopped again
    obtain ⟨hafter, hstops, -⟩ := happening_of_stopped (u := u) hf
    rw [hafter]
    refine ⟨⟨fun _ => ?_, fun _ => hf⟩, ?_, fun hopen => ?_, fun hopen => ?_⟩
    · obtain ⟨x, hx, hcloses⟩ := h.closed_iff.mp hf
      exact ⟨x, List.mem_append_left _ hx, hcloses⟩
    · rw [List.filter_append, List.length_append, h.stops]
      simp [hstops]
    · exact absurd (hf.symm.trans hopen) nofun
    · exact absurd (hf.symm.trans hopen) nofun
  · have hopen : f.stopped = false := Bool.eq_false_iff.mpr hf
    obtain ⟨hstopped, hcloses, hnext⟩ := happening_of_open (u := u) hopen
    have hnot : ¬ ∃ x ∈ past, x.Closes := mt h.closed_iff.mpr hf
    -- what leaves the feed open is an asking that took the next delivery
    have hgoing : (f.happening u).after.stopped = false →
        ∃ d, deliveries[past.length]? = some d ∧ (f.happening u).arrival = some d.arrival
          ∧ (f.happening u).after.pending = deliveries.drop (past.length + 1) := by
      intro hstill
      have hno : ¬ (f.happening u).Closes :=
        mt hcloses.mpr (Bool.eq_false_iff.mp (hstopped ▸ hstill))
      have hu : u = .next := by
        cases u with
        | next => rfl
        | stop => exact absurd (.inl rfl) hno
      obtain ⟨harrival, hpending⟩ := hnext hu
      rw [h.pending hopen, upcoming_drop] at harrival
      rw [h.pending hopen, List.tail_drop] at hpending
      cases hd : deliveries[past.length]? with
      | some d => exact ⟨d, rfl, by rw [harrival, hd]; rfl, hpending⟩
      | none =>
        rw [hd] at harrival
        exact absurd (.inr ⟨_, harrival, .closed⟩) hno
    refine ⟨?_, ?_, fun hstill => ?_, fun hstill => ?_⟩
    · rw [hstopped, hcloses]
      constructor
      · intro hx
        exact ⟨_, List.mem_append_right _ (List.mem_singleton_self _), hx⟩
      · rintro ⟨x, hx, hclosing⟩
        rcases List.mem_append.mp hx with hx | hx
        · exact absurd ⟨x, hx, hclosing⟩ hnot
        · rwa [List.mem_singleton.mp hx] at hclosing
    · rw [List.filter_append, List.length_append, h.stops, hopen, hstopped]
      cases hs : (f.happening u).stops <;> simp [hs]
    · obtain ⟨d, -, -, hpending⟩ := hgoing hstill
      rw [hpending, List.length_append, List.length_singleton]
    · obtain ⟨d, hd, harrival, -⟩ := hgoing hstill
      rw [List.filterMap_append, h.arrived hopen, List.length_append, List.length_singleton,
        List.take_add_one, hd, List.map_append]
      simp [harrival]

/-- **Every use keeps it**, so that it holds before each happening of a history. -/
theorem Used.of_history {us : List Use} (h : Used deliveries past f)
    {earlier : List Happening} {x : Happening} {later : List Happening}
    (heq : history f us = earlier ++ x :: later) :
    Used deliveries (past ++ earlier) x.before ∧ x = x.before.happening x.use := by
  induction us generalizing f past earlier with
  | nil => simp [history] at heq
  | cons u us ih =>
    rw [history] at heq
    cases earlier with
    | nil =>
      obtain ⟨rfl, -⟩ := List.cons.inj heq
      rw [List.append_nil]
      cases u with
      | next => exact ⟨h, rfl⟩
      | stop => exact ⟨h, rfl⟩
    | cons y earlier =>
      obtain ⟨rfl, hrest⟩ := List.cons.inj heq
      rw [List.append_cons]
      exact ih (h.happening u) hrest

/-- All uses together keep it as well. -/
theorem Used.exists_history (h : Used deliveries past f) (us : List Use) :
    ∃ f', Used deliveries (past ++ history f us) f' := by
  induction us generalizing f past with
  | nil => exact ⟨f, by rwa [history, List.append_nil]⟩
  | cons u us ih =>
    obtain ⟨f', hf'⟩ := ih (h.happening u)
    exact ⟨f', by rwa [history, List.append_cons]⟩

/-- The watch was stopped by then if the feed was closed. -/
theorem Used.exists_stops (h : Used deliveries past f) (hclosed : ∃ x ∈ past, x.Closes) :
    ∃ y ∈ past, y.stops = true := by
  have hlength : (past.filter (·.stops)).length = 1 := by
    rw [h.stops, if_pos (h.closed_iff.mpr hclosed)]
  obtain ⟨y, hy⟩ := List.exists_mem_of_length_pos (Nat.lt_of_lt_of_eq Nat.zero_lt_one hlength.symm)
  exact ⟨y, List.mem_filter.mp hy⟩

end Used

/-- **A feed closes once and for good.** Whatever a watch delivers and however its feed is
used, the watch is stopped at most once; it has been stopped as soon as the feed was told to
stop or told that it has come to its end; from then on nothing is taken from the watch any
more, nothing is stopped, and asking tells that the feed has closed; and until then the
askings have told what the deliveries are, one each and in order, and the next asking tells
the next of them. Asking calls the API to stop the watch and for nothing else. -/
theorem closes_once_and_for_good (deliveries : List Delivery) (uses : List Use) :
    ((history (opened deliveries) uses).filter (·.stops)).length ≤ 1
    ∧ (∀ earlier x later, history (opened deliveries) uses = earlier ++ x :: later →
        (x.Closes → ∃ y ∈ earlier ++ [x], y.stops = true)
        ∧ ((∃ y ∈ earlier, y.Closes) →
            x.after = x.before ∧ x.stops = false ∧ (x.use = .next → x.arrival = some .closed))
        ∧ ((∀ y ∈ earlier, ¬ y.Closes) →
            earlier.filterMap (·.arrival)
                = (deliveries.take earlier.length).map Delivery.arrival
            ∧ x.before.pending = deliveries.drop earlier.length
            ∧ (x.use = .next →
                x.arrival = some (deliveries[earlier.length]?.elim .closed Delivery.arrival)
                ∧ x.after.pending = deliveries.drop (earlier.length + 1))))
    ∧ ∀ f t r, Path (pull f) t r →
        questionsOf t = (if f.next.stops then [.stopWatch] else [])
        ∧ ∀ a g, r = .ok (a, g) → a = f.next.turn.arrival ∧ g = f.next.feed := by
  refine ⟨?_, fun earlier x later heq => ?_, fun f t r => path_pull⟩
  · obtain ⟨f, hf⟩ := (used_opened deliveries).exists_history uses
    rw [← List.nil_append (history _ _), hf.stops]
    split
    · exact Nat.le_refl 1
    · exact Nat.zero_le 1
  · obtain ⟨hused, hx⟩ := (used_opened deliveries).of_history heq
    rw [List.nil_append] at hused
    refine ⟨fun hcloses => ?_, fun hclosed => ?_, fun hopen => ?_⟩
    · have hafter := hused.happening x.use
      rw [← hx] at hafter
      exact hafter.exists_stops ⟨x, List.mem_append_right _ (List.mem_singleton_self _), hcloses⟩
    · have hsame := happening_of_stopped (u := x.use) (hused.closed_iff.mpr hclosed)
      rwa [← hx] at hsame
    · have hstopped : x.before.stopped = false :=
        Bool.eq_false_iff.mpr fun h => by
          obtain ⟨y, hy, hcloses⟩ := hused.closed_iff.mp h
          exact hopen y hy hcloses
      refine ⟨hused.arrived hstopped, hused.pending hstopped, fun hnext => ?_⟩
      obtain ⟨-, -, htakes⟩ := happening_of_open (u := x.use) hstopped
      rw [← hx, hused.pending hstopped, upcoming_drop, List.tail_drop] at htakes
      exact htakes hnext

/-- A watch that delivers an event, then an object that is none, and another event. -/
def strayDeliveries : List Delivery := [
  .object (.obj [("involvedObject", .obj [("name", .str "web")])]) false,
  .object (.int 5) false,
  .object (.obj [("involvedObject", .obj [("name", .str "api")])]) false]

/-- The event is told, and the object that is none closes the feed: stopping it and asking
it again come to nothing, and the other event is never told. -/
theorem closes_once_and_for_good_stray :
    (happening (opened strayDeliveries) .next).arrival = some (.event ⟨"", "", "", "web"⟩)
    ∧ ∃ earlier y x, history (opened strayDeliveries) [.next, .next, .stop, .next] = earlier ++ [x]
      ∧ y ∈ earlier ∧ y.Closes ∧ x.stops = false ∧ x.arrival = some .closed := by
  have hevery := (closes_once_and_for_good strayDeliveries [.next, .next, .stop, .next]).2.1
  obtain ⟨-, -, hfirst⟩ := hevery [] _ _ rfl
  obtain ⟨-, -, harrival⟩ := hfirst fun y hy => absurd hy List.not_mem_nil
  obtain ⟨-, hlast, -⟩ := hevery (history (opened strayDeliveries) [.next, .next, .stop]) _ [] rfl
  have hstray : happening ⟨strayDeliveries.drop 1, false⟩ .next
      ∈ history (opened strayDeliveries) [.next, .next, .stop] :=
    List.mem_cons_of_mem _ List.mem_cons_self
  have hcloses : (happening ⟨strayDeliveries.drop 1, false⟩ .next).Closes :=
    .inr ⟨_, rfl, .closed⟩
  obtain ⟨-, hstops, hclosed⟩ := hlast ⟨_, hstray, hcloses⟩
  exact ⟨(harrival rfl).1, _, _, _, rfl, hstray, hcloses, hstops, hclosed rfl⟩

end Feed
end Api
end Rollout
