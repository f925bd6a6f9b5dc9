import Rollout.Api.Memory
import Rollout.Proofs.Rollback.FailStop

/-!
# What a run opens it releases

A run of a command line opens two things: the client, when the server has been looked up,
and the watch on a namespace's events. Both have to be closed whatever happens in between,
and the watch before the client. Nothing else may be called after a call has failed.

The calls of a run keep a protocol (`Api.lifetime`) that says all of it: first the lookup;
then, if the server was found, whatever is asked for; with a watch open, nothing but to stop
it; after a failure or the stop, nothing but to close the client; and after that nothing.
The core follows its own protocol, in which a failure is one of what was asked for. A call
that fails makes such a failure, though an answer that cannot be understood makes one as
well, so that the core may be at its end while a further call would still be allowed
(`Api.Stands`). Closing the client comes behind everything that the core does
(`Api.follows_connected`).
-/

namespace Rollout

open Program (Follows Path Protocol Step path_attempt_iff path_ask_iff path_done_iff questionsOf)
open Backend (Finishes)

namespace Api

/-- The call looks up the server. -/
def Call.isLookup : Call → Bool
  | loadInClusterConfig => true
  | loadKubeConfig .. => true
  | _ => false

/-- The call closes the client. -/
def Call.isClose : Call → Bool
  | close => true
  | _ => false

/-- The call opens a watch. -/
def Call.opensWatch : Call → Bool
  | watch .. => true
  | _ => false

/-- The call that looks up the server that is configured. -/
def lookupCall (config : ClusterConfig) : Call :=
  if config.inCluster then .loadInClusterConfig
  else .loadKubeConfig (orNone config.kubeconfig) (orNone config.context)

/-- **How far a run has come.** -/
inductive Phase where
  /-- Nothing has been called. -/
  | fresh
  | going
  /-- A watch is open. -/
  | watching
  /-- A call has failed, or the watch has been stopped. -/
  | ended
  /-- The client is closed, or there is none. -/
  | closed

/-- **What is called from the lookup to the end.** -/
def lifetime : Protocol Call Call.Answer Phase where
  allows
    | .fresh, c => c.isLookup = true
    | .going, c => c ≠ .stopWatch ∧ c.isLookup = false
    | .watching, c => c = .stopWatch
    | .ended, c => c = .close
    | .closed, _ => False
  next
    | .fresh, _, a => if a.isOk then .going else .closed
    | .going, c, a =>
      if c.isClose then .closed
      else if a.isOk then (if c.opensWatch then .watching else .going) else .ended
    | .watching, _, _ => .ended
    | .ended, _, _ => .closed
    | .closed, _, _ => .closed

/-! ## What is read off the protocol -/

section Kept

variable {t before later : List (Step Call Call.Answer)} {ph ph' : Phase}

theorem questionsOf_of_kept_closed (h : lifetime.Kept .closed t ph) : questionsOf t = [] := by
  induction t with
  | nil => rfl
  | cons x t ih =>
    cases x with
    | noted n => exact ih h
    | asked c a => exact h.1.elim

theorem questionsOf_of_kept_ended (h : lifetime.Kept .ended t .closed) :
    questionsOf t = [.close] := by
  induction t with
  | nil => cases h
  | cons x t ih =>
    cases x with
    | noted n => exact ih h
    | asked c a =>
      obtain ⟨rfl, hrest⟩ := h
      rw [Program.questionsOf_asked, questionsOf_of_kept_closed hrest]

/-- **With a watch open** it is stopped and the client closed. -/
theorem questionsOf_of_kept_watching (h : lifetime.Kept .watching t .closed) :
    questionsOf t = [.stopWatch, .close] := by
  induction t with
  | nil => cases h
  | cons x t ih =>
    cases x with
    | noted n => exact ih h
    | asked c a =>
      obtain ⟨rfl, hrest⟩ := h
      rw [Program.questionsOf_asked, questionsOf_of_kept_ended hrest]

/-- The client is open. -/
def Phase.IsOpen (ph : Phase) : Prop :=
  ph = .going ∨ ph = .watching ∨ ph = .ended

/-- An open client is closed by a call that does nothing else, and by no other. -/
theorem next_of_isOpen (hopen : ph.IsOpen) {c : Call} (hc : lifetime.allows ph c) (a : c.Answer) :
    c = .close ∧ lifetime.next ph c a = .closed
      ∨ (c ≠ .close ∧ c.isLookup = false) ∧ (lifetime.next ph c a).IsOpen := by
  rcases hopen with rfl | rfl | rfl
  · obtain ⟨-, hlookup⟩ := hc
    cases hclose : c.isClose with
    | true =>
      obtain rfl : c = .close := by cases c <;> first | rfl | cases hclose
      exact .inl ⟨rfl, rfl⟩
    | false =>
      have hnext : lifetime.next .going c a
          = if a.isOk then (if c.opensWatch then .watching else .going) else .ended :=
        if_neg (Bool.eq_false_iff.mp hclose)
      refine .inr ⟨⟨?_, hlookup⟩, ?_⟩
      · rintro rfl
        cases hclose
      · rw [hnext]
        split
        · split
          · exact .inr (.inl rfl)
          · exact .inl rfl
        · exact .inr (.inr rfl)
  · obtain rfl : c = .stopWatch := hc
    exact .inr ⟨⟨nofun, rfl⟩, .inr (.inr rfl)⟩
  · obtain rfl : c = .close := hc
    exact .inl ⟨rfl, rfl⟩

/-- **A client that was opened** is closed in the end and not before. -/
theorem exists_of_kept_open (hopen : ph.IsOpen) (h : lifetime.Kept ph t .closed) :
    ∃ between, questionsOf t = between ++ [.close]
      ∧ ∀ c ∈ between, c ≠ .close ∧ c.isLookup = false := by
  induction t generalizing ph with
  | nil =>
    obtain rfl : .closed = ph := h
    rcases hopen with h | h | h <;> cases h
  | cons x t ih =>
    cases x with
    | noted n => exact ih hopen h
    | asked c a =>
      obtain ⟨hc, hrest⟩ := h
      rw [Program.questionsOf_asked]
      obtain ⟨rfl, hnext⟩ | ⟨hother, hnext⟩ := next_of_isOpen hopen hc a
      · rw [hnext] at hrest
        exact ⟨[], by rw [questionsOf_of_kept_closed hrest]; rfl, nofun⟩
      · obtain ⟨between, heq, hbetween⟩ := ih hnext hrest
        exact ⟨c :: between, by rw [heq]; rfl, List.forall_mem_cons.mpr ⟨hother, hbetween⟩⟩

/-- **After a call that failed** a watch is stopped or the client closed, and nothing else is
called. -/
theorem questionsOf_of_kept_failed {c : Call} {e : CallError}
    (h : lifetime.Kept ph (.asked c (.error e) :: later) .closed) :
    ∀ c' ∈ questionsOf later, c' = .stopWatch ∨ c' = .close := by
  obtain ⟨hc, hrest⟩ := h
  have hnext : lifetime.next ph c (.error e) = .ended ∨ lifetime.next ph c (.error e) = .closed := by
    cases ph with
    | going =>
      cases hclose : c.isClose with
      | true => exact .inr (if_pos hclose)
      | false => exact .inl (if_neg (Bool.eq_false_iff.mp hclose))
    | watching => exact .inl rfl
    | _ => exact .inr rfl
  rcases hnext with hnext | hnext
  · rw [hnext] at hrest
    rw [questionsOf_of_kept_ended hrest]
    exact fun c' hc' => .inr (List.mem_singleton.mp hc')
  · rw [hnext] at hrest
    rw [questionsOf_of_kept_closed hrest]
    exact nofun

/-- **A watch that was opened** is stopped, and then the client closed. -/
theorem questionsOf_of_kept_opened {space : Text} {after : Option Text} {seconds : Int}
    {deliveries : List Delivery}
    (h : lifetime.Kept ph (.asked (.watch space after seconds) (.ok deliveries) :: later) .closed) :
    questionsOf later = [.stopWatch, .close] := by
  obtain ⟨hc, hrest⟩ := h
  cases ph with
  | going => exact questionsOf_of_kept_watching hrest
  | _ => cases hc

/-- Only a watch that is answered leads to an open watch. -/
theorem exists_of_next_watching {c : Call} {a : c.Answer}
    (h : lifetime.next ph c a = .watching) : ∃ space after seconds deliveries,
      Step.asked c a = .asked (.watch space after seconds) (.ok deliveries) := by
  cases ph with
  | fresh => cases a <;> cases h
  | going =>
    cases c with
    | watch space after seconds =>
      cases a with
      | ok deliveries => exact ⟨space, after, seconds, deliveries, rfl⟩
      | error e => cases h
    | close => cases h
    | _ => cases a <;> cases h
  | _ => cases h

/-- **With a watch open, one has been opened** since none was. -/
theorem exists_opened_of_kept (h : lifetime.Kept ph before .watching) (hph : ph ≠ .watching) :
    ∃ space after seconds deliveries,
      .asked (.watch space after seconds) (.ok deliveries) ∈ before := by
  induction before generalizing ph with
  | nil => exact absurd h.symm hph
  | cons x before ih =>
    cases x with
    | noted n =>
      obtain ⟨space, after, seconds, deliveries, hmem⟩ := ih h hph
      exact ⟨space, after, seconds, deliveries, List.mem_cons_of_mem _ hmem⟩
    | asked c a =>
      by_cases hnext : lifetime.next ph c a = .watching
      · obtain ⟨space, after, seconds, deliveries, heq⟩ := exists_of_next_watching hnext
        exact ⟨space, after, seconds, deliveries, heq ▸ List.mem_cons_self⟩
      · obtain ⟨space, after, seconds, deliveries, hmem⟩ := ih h.2 hnext
        exact ⟨space, after, seconds, deliveries, List.mem_cons_of_mem _ hmem⟩

end Kept

/-- **What a run opens it releases.** The server is looked up first. If it is not found that
is all; otherwise the client is closed once, at the very end. A watch that is opened is
stopped next, and then the client is closed; no other watch is stopped. After a call that
failed a watch may be stopped and the client closed, and nothing else is called. -/
structure IsReleased (config : ClusterConfig) (t : List (Step Call Call.Answer)) : Prop where
  lookup : ∃ a rest, t = .asked (lookupCall config) a :: rest
    ∧ (∀ e, a = .error e → questionsOf rest = [])
    ∧ ∀ u, a = .ok u → ∃ between, questionsOf rest = between ++ [.close]
      ∧ ∀ c ∈ between, c ≠ .close ∧ c.isLookup = false
  opened : ∀ before space after seconds deliveries later,
    t = before ++ .asked (.watch space after seconds) (.ok deliveries) :: later →
    questionsOf later = [.stopWatch, .close]
  stopped : ∀ before a later, t = before ++ .asked .stopWatch a :: later →
    ∃ space after seconds deliveries,
      .asked (.watch space after seconds) (.ok deliveries) ∈ before
  failed : ∀ (before : List (Step Call Call.Answer)) c e later,
    t = before ++ .asked c (.error e) :: later →
    ∀ c' ∈ questionsOf later, c' = .stopWatch ∨ c' = .close

/-- **All of it is read off the protocol**, if the lookup is the one that is configured. -/
theorem isReleased_of_kept {config : ClusterConfig} {t rest : List (Step Call Call.Answer)}
    {a : (lookupCall config).Answer} (ht : t = .asked (lookupCall config) a :: rest)
    (h : lifetime.Kept .fresh t .closed) : IsReleased config t where
  lookup := by
    subst ht
    refine ⟨a, rest, rfl, ?_, ?_⟩
    · rintro e rfl
      exact questionsOf_of_kept_closed h.2
    · rintro u rfl
      exact exists_of_kept_open (.inl rfl) h.2
  opened before space after seconds deliveries later heq := by
    rw [heq, Protocol.kept_append_iff] at h
    obtain ⟨ph, -, hkept⟩ := h
    exact questionsOf_of_kept_opened hkept
  stopped before a later heq := by
    rw [heq, Protocol.kept_append_iff] at h
    obtain ⟨ph, hbefore, hc, -⟩ := h
    cases ph with
    | watching => exact exists_opened_of_kept hbefore nofun
    | going => exact absurd rfl hc.1
    | _ => cases hc
  failed before c e later heq := by
    rw [heq, Protocol.kept_append_iff] at h
    obtain ⟨ph, -, hkept⟩ := h
    exact questionsOf_of_kept_failed hkept

/-! ## The core over the API -/

/-- **Where the calls are when the core is in a phase.** A failure that no call made leaves
the core at its end, and the calls where they were. -/
inductive Stands : Backend.Phase → Phase → Prop where
  | going : Stands .going .going
  | watching : Stands .watching .watching
  | failed : Stands .ended .going
  | ended : Stands .ended .ended

/-- What was asked for fails if its call does. -/
theorem stands_next {q : Backend.Request} (hq : q.opensWatch = false) {c : Call}
    (hclose : c.isClose = false) (hwatch : c.opensWatch = false) {a : c.Answer} {b : q.Answer}
    (hfails : ∀ e, a = .error e → q.succeeded b = false) :
    Stands (Backend.failStop.next .going q b) (lifetime.next .going c a) := by
  have hcore : Backend.failStop.next .going q b = if q.succeeded b then .going else .ended := by
    show (if q.succeeded b then (if q.opensWatch then _ else _) else _) = _
    rw [hq]
    rfl
  have hcalls : lifetime.next .going c a = if a.isOk then .going else .ended := by
    show (if c.isClose then _ else if a.isOk then (if c.opensWatch then _ else _) else _) = _
    rw [hclose, hwatch]
    rfl
  rw [hcore, hcalls]
  cases a with
  | ok x =>
    cases q.succeeded b with
    | true => exact .going
    | false => exact .failed
  | error e =>
    rw [hfails e rfl]
    exact .ended

/-- **A request that is one call** is answered by it, and fails if the call does. -/
theorem follows_call {q : Backend.Request} (hq : q.opensWatch = false) {c : Call}
    (hstop : c ≠ .stopWatch) (hlookup : c.isLookup = false) (hclose : c.isClose = false)
    (hwatch : c.opensWatch = false) {f : c.Answer → q.Answer}
    (hfails : ∀ e, q.succeeded (f (.error e)) = false) :
    Follows lifetime (fun ph r => ∃ b, r = .ok b ∧ Stands (Backend.failStop.next .going q b) ph)
      .going (.ask c fun a => .done (.ok (f a))) := by
  refine ⟨⟨hstop, hlookup⟩, fun a => ⟨f a, rfl, stands_next hq hclose hwatch ?_⟩⟩
  rintro e rfl
  exact hfails e

/-- **A request is answered by calls that keep the protocol**, and leaves them where they
stand for the core. -/
theorem follows_answer (seconds : Int) {q : Backend.Request} {ph : Backend.Phase} {ph' : Phase}
    (h : Stands ph ph') (hq : Backend.failStop.allows ph q) :
    Follows lifetime (fun ph'' r => ∃ a, r = .ok a ∧ Stands (Backend.failStop.next ph q a) ph'')
      ph' (answer seconds q) := by
  cases h with
  | going =>
    cases q with
    | patchWorkload kind space name patch =>
      -- a patch that cannot be read is not sent
      simp only [answer]
      split
      · exact ⟨_, rfl, .failed⟩
      · exact ⟨_, rfl, .failed⟩
      · apply follows_call
        case hstop => rintro ⟨⟩
        case hfails => exact fun _ => rfl
        all_goals rfl
    | watchEvents space watermark =>
      refine ⟨⟨by rintro ⟨⟩, rfl⟩, fun a => ⟨_, rfl, ?_⟩⟩
      cases a with
      | ok deliveries => exact .watching
      | error e => exact .ended
    | stopWatch => exact absurd rfl hq
    | _ =>
      apply follows_call
      case hstop => rintro ⟨⟩
      case hfails => exact fun _ => rfl
      all_goals rfl
  | watching =>
    obtain rfl : q = .stopWatch := hq
    exact ⟨rfl, fun a => ⟨_, rfl, .ended⟩⟩
  | failed => exact hq.elim
  | ended => exact hq.elim

/-- **The client is closed behind everything that the core does**, and is not closed if
there is none. -/
theorem follows_connected {α : Type} (config : ClusterConfig) {p : Backend.Talk α}
    (h : Follows Backend.failStop Finishes .going p) :
    Follows lifetime (fun ph _ => ph = .closed) .fresh (connected config p) := by
  have htalk : Follows lifetime (fun ph _ => ph = .closed) .going
      ((talk config.watchTimeoutSeconds p).thenAlways close) := by
    have hcore : Follows lifetime (fun ph' r => ∃ ph, Stands ph ph' ∧ Finishes ph r) .going
        (talk config.watchTimeoutSeconds p) :=
      Follows.through (fun _ _ _ => follows_answer config.watchTimeoutSeconds) h Stands.going
    refine hcore.attempt fun ph r hends => ?_
    obtain ⟨ph', hstands, hfinishes⟩ := hends
    have hclosing : lifetime.allows ph .close ∧ ∀ a, lifetime.next ph .close a = .closed := by
      cases hstands with
      | going => exact ⟨⟨nofun, rfl⟩, fun _ => rfl⟩
      | watching => exact absurd rfl hfinishes
      | failed => exact ⟨⟨nofun, rfl⟩, fun _ => rfl⟩
      | ended => exact ⟨rfl, fun _ => rfl⟩
    refine ⟨hclosing.1, fun a => ?_⟩
    rw [hclosing.2 a]
    cases a <;> exact rfl
  have hconnect : Follows lifetime
      (fun ph r => (∃ u, r = .ok u) ∧ ph = .going ∨ (∃ e, r = .error e) ∧ ph = .closed)
      .fresh (connect config) := by
    unfold connect
    split
    · refine ⟨rfl, fun a => ?_⟩
      cases a with
      | ok => exact .inl ⟨⟨_, rfl⟩, rfl⟩
      | error e => exact .inr ⟨⟨_, rfl⟩, rfl⟩
    · refine ⟨rfl, fun a => ?_⟩
      cases a with
      | ok => exact .inl ⟨⟨_, rfl⟩, rfl⟩
      | error e => exact .inr ⟨⟨_, rfl⟩, rfl⟩
  refine hconnect.bind (fun ph u hends => ?_) (fun ph e hends => ?_)
  · obtain ⟨-, rfl⟩ | ⟨⟨e, he⟩, -⟩ := hends
    · exact htalk
    · cases he
  · obtain ⟨⟨u, hu⟩, -⟩ | ⟨-, hph⟩ := hends
    · cases hu
    · exact hph

/-- The server that is configured is looked up first. -/
theorem exists_lookup_of_path {α : Type} {config : ClusterConfig} {p : Backend.Talk α}
    {t : List (Step Call Call.Answer)} {r : Outcome α} (h : Path (connected config p) t r) :
    ∃ a rest, t = .asked (lookupCall config) a :: rest := by
  obtain ⟨r₁, t₁, t₂, rfl, hconnect, -⟩ := path_attempt_iff.mp h
  cases hin : config.inCluster with
  | true =>
    rw [connect, if_pos hin] at hconnect
    obtain ⟨a, rest, rfl, -⟩ := path_ask_iff.mp hconnect
    rw [lookupCall, if_pos hin]
    exact ⟨a, _, rfl⟩
  | false =>
    rw [connect, if_neg (Bool.eq_false_iff.mp hin)] at hconnect
    obtain ⟨a, rest, rfl, -⟩ := path_ask_iff.mp hconnect
    rw [lookupCall, if_neg (Bool.eq_false_iff.mp hin)]
    exact ⟨a, _, rfl⟩

end Api

/-! ## Command lines -/

namespace CommandLine

/-- **A plan that is carried out** releases what it opens: what is made of the result calls
nothing. -/
theorem isReleased_of_path_execute {logging : List LogSetup} {plan : Plan}
    {t : List (Step Api.Call Api.Call.Answer)} {r : Outcome Report}
    (h : Path (execute logging plan) t r) : Api.IsReleased plan.config.cluster t := by
  have hfollows : Follows Api.lifetime (fun ph _ => ph = .closed) .fresh (execute logging plan) := by
    refine (Api.follows_connected plan.config.cluster (finishes_carryOut plan)).attempt
      fun ph r hclosed => ?_
    cases r with
    | ok texts =>
      show Follows _ _ ph (if _ then _ else _)
      split
      · exact hclosed
      · exact hclosed
    | error e => cases e <;> exact hclosed
  obtain ⟨ph, hkept, rfl⟩ := hfollows.of_path h
  obtain ⟨r₁, t₁, t₂, rfl, hconnected, -⟩ := path_attempt_iff.mp h
  obtain ⟨a, rest, rfl⟩ := Api.exists_lookup_of_path hconnected
  exact Api.isReleased_of_kept rfl hkept

/-- **Runs stop at the first failure and release what they open.** Whatever the command line
and the settings are, and whatever the server answers: a run that has no plan calls nothing;
any other looks up the server first and then closes the client at the very end, stops the
watch that it has opened before that, and calls nothing else after a call that failed. The
same holds of a rollback whose caller has given up before the watch was opened. -/
theorem runs_release_what_they_open :
    (∀ env args t r, Path (run env args) t r →
      (∀ stop, (read env args).plan = .error stop → questionsOf t = [])
      ∧ ∀ plan, (read env args).plan = .ok plan → Api.IsReleased plan.config.cluster t)
    ∧ ∀ config kind space name order t r,
      Path (Api.connected config (do
        let w ← Backend.getWorkload kind space name
        Rollback.rollBack kind w order)) t r →
      Api.IsReleased config t := by
  refine ⟨fun env args t r h => ⟨fun stop hstop => ?_, fun plan hplan => ?_⟩,
    fun config kind space name order t r h => ?_⟩
  · simp only [run, hstop] at h
    cases stop with
    | help =>
      obtain ⟨rfl, -⟩ := path_done_iff.mp h
      rfl
    | usage cause =>
      obtain ⟨rfl, -⟩ := path_done_iff.mp h
      rfl
  · simp only [run, hplan] at h
    exact isReleased_of_path_execute h
  · have hcore : Follows Backend.failStop Finishes .going (do
        let w ← Backend.getWorkload kind space name
        Rollback.rollBack kind w order) :=
      Backend.follows_bind (Backend.failStops_getWorkload kind space name)
        (fun w => Rollback.finishes_rollBack kind w order) fun _ _ h => h
    obtain ⟨ph, hkept, rfl⟩ := (Api.follows_connected config hcore).of_path h
    obtain ⟨a, rest, ht⟩ := Api.exists_lookup_of_path h
    exact Api.isReleased_of_kept ht hkept

/-- A cluster with a deployment that tells the end of its rollback. -/
def tellingMemory : Api.Memory :=
  { Api.Memory.empty with
    workloads := [⟨.deployment, "default", "web",
      .obj [("metadata", .obj [("name", .str "web"), ("namespace", .str "default")])]⟩]
    deliveries := [.object (.obj [("involvedObject", .obj [("name", .str "web")]),
      ("reason", .str Ending.doneReason)]) false] }

/-- The watch of a rollback is stopped, and then the client closed. -/
theorem runs_release_what_they_open_web :
    let t := (run [] ["undo", "deployment/web"]).steps Api.Memory.serve tellingMemory
    (questionsOf t).length = 7 ∧ ∃ before later,
      t = before ++ .asked (.watch "default" (some "4242") 300) (.ok tellingMemory.deliveries)
        :: later
      ∧ questionsOf later = [.stopWatch, .close] := by
  intro t
  have hplanned : (read [] ["undo", "deployment/web"]).plan.isOk = true := by decide +kernel
  cases hplan : (read [] ["undo", "deployment/web"]).plan with
  | error stop =>
    rw [hplan] at hplanned
    cases hplanned
  | ok plan =>
    obtain ⟨-, hreleased⟩ := runs_release_what_they_open.1 [] ["undo", "deployment/web"] t _
      (Program.path_steps Api.Memory.serve _ tellingMemory)
    have hopened : t[6]? = some (.asked (.watch "default" (some "4242") 300)
        (.ok tellingMemory.deliveries)) := rfl
    obtain ⟨before, later, heq⟩ := List.append_of_mem (List.mem_of_getElem? hopened)
    exact ⟨by decide +kernel, before, later, heq,
      (hreleased plan hplan).opened _ _ _ _ _ _ heq⟩

end CommandLine
end Rollout
