import Rollout.Proofs.Program.Alike
import Rollout.Rollback.Basic

/-!
# The event that decides a rollback

The rollback of a deployment is carried out by the cluster, and the one who
asked for it waits on the events of the whole namespace. The first event with
one of the three reasons ends the wait, and what it tells is the end
(`Rollback.deciding_event`). Everything before it is passed over, whatever it
is about.

What an event is *about* plays no part. Two clusters whose events differ in
that only (`Backend.DifferInObjects`) are asked the same and leave the rollback
with the same result. While another deployment is rolled back in the same
namespace, its events carry the same reasons, and one of them can end the wait
(`Rollback.foreign_event_decides`). The verdict belongs to the workload that was
rolled back only as long as nobody else's is told on the stream.
-/

namespace Rollout

open Program (Alike Path Run Step path_attempt_iff path_bind_ok_iff path_ask_iff path_done_iff)

/-- An end that the cluster told, in contrast to one that nobody has told. -/
def Ending.IsTold : Ending → Prop
  | .succeeded => True
  | .skipped _ => True
  | _ => False

/-- The event is about the deployment. -/
def Event.IsAbout (e : Event) (w : Workload) : Prop :=
  e.involvedKind = Kind.deployment.name ∧ e.involvedName = w.name

/-- **A turn that is passed over**: an event that tells of no end, to one who
has not given up. -/
def Turn.IsPassedOver (t : Turn) : Prop :=
  t.interrupted = false ∧ ∃ e, t.arrival = .event e ∧ Ending.ofEvent? e = none

/-! ## What events are about -/

/-- The event as it is told of nothing in particular. -/
def Event.withoutObject (e : Event) : Event :=
  { e with involvedKind := "", involvedName := "" }

/-- The arrival without what an event is about. -/
def Arrival.withoutObject : Arrival → Arrival
  | event e => event e.withoutObject
  | a => a

/-- The turn without what an event is about. -/
def Turn.withoutObject (t : Turn) : Turn :=
  { t with arrival := t.arrival.withoutObject }

namespace Backend

/-- **Answers that differ in what events are about only**: in the involved kinds
and names on a watch. All else is the same. -/
def SameButObjects : (q : Request) → q.Answer → q.Answer → Prop
  | .watchEvents .., a, a' =>
    a.map (List.map Turn.withoutObject) = a'.map (List.map Turn.withoutObject)
  | _, a, a' => a = a'

/-- **Two clusters that differ in what their events are about only.** They change
in the same way. -/
structure DifferInObjects {σ : Type} (answer answer' : σ → (q : Request) → q.Answer × σ) :
    Prop where
  answers : ∀ s q, SameButObjects q (answer s q).1 (answer' s q).1
  states : ∀ s q, (answer s q).2 = (answer' s q).2

end Backend

namespace Rollback

/-! ## The wait -/

/-- **A wait does not look at what events are about.** It comes to the same and
notes down as much. -/
theorem wait_withoutObject (cancelled : Bool) (script : Script) :
    (wait cancelled (script.map Turn.withoutObject)).result = (wait cancelled script).result
      ∧ (wait cancelled (script.map Turn.withoutObject)).notes.length
        = (wait cancelled script).notes.length
      ∧ (wait cancelled (script.map Turn.withoutObject)).afterwards.length
        = (wait cancelled script).afterwards.length := by
  induction script generalizing cancelled with
  | nil => exact ⟨rfl, rfl, rfl⟩
  | cons t script ih =>
    obtain ⟨interrupted, arrival, notes⟩ := t
    cases cancelled with
    | true => exact ⟨rfl, rfl, rfl⟩
    | false =>
      cases arrival with
      | event e =>
        have hevent : Ending.ofEvent? e.withoutObject = Ending.ofEvent? e := rfl
        rw [List.map_cons, wait, wait]
        simp only [Turn.withoutObject, Arrival.withoutObject, hevent]
        cases Ending.ofEvent? e with
        | some ending => exact ⟨rfl, by simp [Wait.after, Wait.ended, endNotes], rfl⟩
        | none =>
          obtain ⟨hresult, hnotes, hafterwards⟩ := ih interrupted
          exact ⟨hresult, by simp [Wait.after, hnotes], hafterwards⟩
      | _ => exact ⟨rfl, rfl, rfl⟩

/-- **What is passed over does not end the wait.** -/
theorem wait_append {passed : Script} (h : ∀ t ∈ passed, t.IsPassedOver) (rest : Script) :
    (wait false (passed ++ rest)).result = (wait false rest).result := by
  induction passed with
  | nil => rfl
  | cons t passed ih =>
    obtain ⟨⟨hi, e, ha, he⟩, hp⟩ := List.forall_mem_cons.mp h
    rw [List.cons_append, wait, ha]
    simp only [he, hi]
    exact ih hp

/-- **A told end was told by the first event that tells one.** -/
theorem exists_deciding_turn {cancelled : Bool} {script : Script} {ending : Ending}
    (h : (wait cancelled script).result = .ok ending) (hend : ending.IsTold) :
    ∃ passed turn rest e, script = passed ++ turn :: rest
      ∧ (∀ t ∈ passed, t.IsPassedOver)
      ∧ turn.arrival = .event e ∧ Ending.ofEvent? e = some ending := by
  induction script generalizing cancelled with
  | nil => cases cancelled <;> cases h <;> exact hend.elim
  | cons t script ih =>
    cases cancelled with
    | true => cases h; exact hend.elim
    | false =>
      rw [wait] at h
      cases ha : t.arrival with
      | event e =>
        rw [ha] at h
        cases he : Ending.ofEvent? e with
        | some told =>
          simp only [he] at h
          cases h
          exact ⟨[], t, script, e, rfl, by simp, ha, he⟩
        | none =>
          simp only [he] at h
          obtain ⟨passed, turn, rest, e', rfl, hp, ha', he'⟩ := ih h
          -- had the caller given up in this turn, nothing would have been told
          have hi : t.interrupted = false := by
            cases hi : t.interrupted with
            | false => rfl
            | true =>
              rw [hi, wait] at h
              cases h
              exact hend.elim
          exact ⟨t :: passed, turn, rest, e', rfl,
            List.forall_mem_cons.mpr ⟨⟨hi, e, ha, he⟩, hp⟩, ha', he'⟩
      | closed => rw [ha] at h; cases h; exact hend.elim
      | failed e => rw [ha] at h; cases h
      | never => rw [ha] at h; cases h; exact hend.elim
      | broken => rw [ha] at h; cases h

/-! ## From the wait to the rollback -/

/-- Waits for events that differ in what they are about go alike. -/
theorem alike_awaitEnding {cancelled : Bool} {script script' : Script}
    (h : script.map Turn.withoutObject = script'.map Turn.withoutObject) :
    Alike Backend.SameButObjects Eq (awaitEnding cancelled script)
      (awaitEnding cancelled script') := by
  obtain ⟨hresult, hnotes, hafterwards⟩ := wait_withoutObject cancelled script
  obtain ⟨hresult', hnotes', hafterwards'⟩ := wait_withoutObject cancelled script'
  rw [← h] at hresult' hnotes' hafterwards'
  refine Program.alike_notes_bind (hnotes.symm.trans hnotes') ?_
  refine Alike.bind_eq (.ask fun a a' ha => .done ha) fun _ => ?_
  exact Program.alike_notes_bind (hafterwards.symm.trans hafterwards')
    (.done (hresult.symm.trans hresult'))

theorem alike_submit (w : Workload) (order : Order) :
    Alike Backend.SameButObjects Eq (submit w order) (submit w order) := by
  refine Alike.bind_eq (.ask fun a a' ha => .done ha) fun mark => ?_
  refine Alike.bind_eq (.ask fun a a' ha => .done ha) fun _ => .note _ _ ?_
  refine .ask fun a a' ha => ?_
  cases a with
  | error e =>
    cases a' with
    | error e' => exact .done (congrArg _ (Except.error.inj ha))
    | ok script' => cases ha
  | ok script =>
    cases a' with
    | error e' => cases ha
    | ok script' => exact alike_awaitEnding (Except.ok.inj ha)

/-- **A real rollback of a deployment does not look at what events are about.** -/
theorem alike_rollBack (w : Workload) {order : Order} (hreal : order.dryRun = false) :
    Alike Backend.SameButObjects Eq (rollBack .deployment w order)
      (rollBack .deployment w order) := by
  have hkind : Alike Backend.SameButObjects Eq (rollBackDeployment w order)
      (rollBackDeployment w order) := by
    refine Alike.bind_eq (.done rfl) fun paused => ?_
    cases paused with
    | true => exact .done rfl
    | false =>
      rw [hreal]
      exact alike_submit w order
  unfold rollBack
  split
  · exact .done rfl
  · refine hkind.attempt fun r r' hr => ?_
    subst hr
    cases r with
    | ok ending => exact .note _ _ (.note _ _ (.done rfl))
    | error e =>
      cases e with
      | rollout e => exact .note _ _ (.note _ _ (.done rfl))
      | malformed => exact .done rfl

/-- What the wait came to is what it ends with. -/
theorem result_of_path_awaitEnding {cancelled : Bool} {script : Script}
    {t : List (Step Backend.Request Backend.Request.Answer)} {ending : Ending}
    (h : Path (awaitEnding cancelled script) t (.ok ending)) :
    (wait cancelled script).result = .ok ending := by
  obtain ⟨_, _, _, -, -, h⟩ := path_bind_ok_iff.mp h
  obtain ⟨_, _, _, -, -, h⟩ := path_bind_ok_iff.mp h
  obtain ⟨_, _, _, -, -, h⟩ := path_bind_ok_iff.mp h
  exact (path_done_iff.mp h).2.symm

/-- **A submitted rollback ends as the wait on the namespace's events
does.** -/
theorem exists_wait_of_path_submit {w : Workload} {order : Order}
    {t : List (Step Backend.Request Backend.Request.Answer)} {ending : Ending}
    (h : Path (submit w order) t (.ok ending)) :
    ∃ mark script, .asked (.watchEvents w.space mark) (.ok script) ∈ t
      ∧ (wait order.cancelled script).result = .ok ending := by
  obtain ⟨mark, _, _, rfl, -, hpost⟩ := path_bind_ok_iff.mp h
  obtain ⟨_, _, _, rfl, -, hlog⟩ := path_bind_ok_iff.mp hpost
  obtain ⟨_, _, _, rfl, -, hopen⟩ := path_bind_ok_iff.mp hlog
  obtain ⟨script, _, _, rfl, hask, hwait⟩ := path_bind_ok_iff.mp hopen
  obtain ⟨_, _, rfl, hanswer⟩ := path_ask_iff.mp hask
  obtain ⟨rfl, rfl⟩ := path_done_iff.mp hanswer
  exact ⟨mark, script, by simp, result_of_path_awaitEnding hwait⟩

/-- A rollback ends as what rolls back workloads of the kind. -/
theorem exists_path_rollBackKind {kind : Kind} {w : Workload} {order : Order}
    {t : List (Step Backend.Request Backend.Request.Answer)} {ending : Ending}
    (h : Path (rollBack kind w order) t (.ok ending)) :
    ∃ t₁ t₂, t = t₁ ++ t₂ ∧ Path (rollBackKind kind w order) t₁ (.ok ending) := by
  rw [rollBack] at h
  split at h
  · obtain ⟨-, h⟩ := path_done_iff.mp h
    cases h
  · obtain ⟨r, t₁, t₂, rfl, h₁, h₂⟩ := path_attempt_iff.mp h
    refine ⟨t₁, t₂, rfl, ?_⟩
    cases r with
    | ok e =>
      obtain ⟨_, _, _, -, -, h₂⟩ := path_bind_ok_iff.mp h₂
      obtain ⟨_, _, _, -, -, h₂⟩ := path_bind_ok_iff.mp h₂
      obtain ⟨-, h₂⟩ := path_done_iff.mp h₂
      cases h₂
      exact h₁
    | error e =>
      cases e with
      | rollout e =>
        obtain ⟨_, _, _, -, -, h₂⟩ := path_bind_ok_iff.mp h₂
        obtain ⟨_, _, _, -, -, h₂⟩ := path_bind_ok_iff.mp h₂
        obtain ⟨-, h₂⟩ := path_done_iff.mp h₂
        cases h₂
      | malformed =>
        obtain ⟨-, h₂⟩ := path_done_iff.mp h₂
        cases h₂

/-- A deployment's rollback that is no dry run is a submitted one. -/
theorem exists_path_submit {w : Workload} {order : Order} (hreal : order.dryRun = false)
    {t : List (Step Backend.Request Backend.Request.Answer)} {ending : Ending}
    (h : Path (rollBackDeployment w order) t (.ok ending)) :
    ∃ t₁ t₂, t = t₁ ++ t₂ ∧ Path (submit w order) t₂ (.ok ending) := by
  obtain ⟨paused, t₁, t₂, rfl, -, h⟩ := path_bind_ok_iff.mp h
  cases paused with
  | true =>
    obtain ⟨-, h⟩ := path_done_iff.mp h
    cases h
  | false =>
    rw [hreal] at h
    exact ⟨t₁, t₂, rfl, h⟩

/-! ## The verdict -/

/-- **The first event that tells an end decides.** Whatever the cluster
answers, a real rollback of a deployment that comes to an end the cluster told
was decided by the first event on the watch with one of the three reasons, and
came to what that event tells. Every event before it was passed over, whatever
it was about, and so is any other. What the events are about is not looked at:
where it differs, and nothing else does, the rollback ends in the same way after
the same questions. The verdict is about the workload if the stream tells no
verdict about anything else. -/
theorem deciding_event (w : Workload) (order : Order) (hreal : order.dryRun = false) :
    (∀ (t : List (Step Backend.Request Backend.Request.Answer)) (ending : Ending),
      Path (rollBack .deployment w order) t (.ok ending) → ending.IsTold →
      ∃ mark script passed turn rest e,
        .asked (.watchEvents w.space mark) (.ok script) ∈ t
          ∧ script = passed ++ turn :: rest
          ∧ (∀ u ∈ passed, u.IsPassedOver)
          ∧ turn.arrival = .event e ∧ Ending.ofEvent? e = some ending
          ∧ ((∀ u ∈ script, ∀ f, u.arrival = .event f → (Ending.ofEvent? f).isSome →
              f.IsAbout w) → e.IsAbout w))
    ∧ (∀ passed rest : Script, (∀ u ∈ passed, u.IsPassedOver) →
      (wait false (passed ++ rest)).result = (wait false rest).result)
    ∧ ∀ {σ : Type} (answer answer' : σ → (q : Backend.Request) → q.Answer × σ) (s : σ),
      Backend.DifferInObjects answer answer' →
      Run.Same Eq ((rollBack .deployment w order).run answer s)
        ((rollBack .deployment w order).run answer' s) := by
  refine ⟨fun t ending h hend => ?_, fun passed rest hp => wait_append hp rest,
    fun answer answer' s h => ?_⟩
  swap
  · exact (alike_rollBack w hreal).run (fun s q => ⟨h.answers s q, h.states s q⟩) s
  obtain ⟨t₁, t₂, rfl, hk⟩ := exists_path_rollBackKind h
  obtain ⟨t₃, t₄, rfl, hs⟩ := exists_path_submit hreal hk
  obtain ⟨mark, script, hask, hw⟩ := exists_wait_of_path_submit hs
  obtain ⟨passed, turn, rest, e, rfl, hp, ha, he⟩ := exists_deciding_turn hw hend
  refine ⟨mark, _, passed, turn, rest, e, ?_, rfl, hp, ha, he, fun habout => ?_⟩
  · exact List.mem_append_left _ (List.mem_append_right _ hask)
  · exact habout turn (by simp) e ha (by rw [he]; rfl)

/-! ## Somebody else's verdict -/

/-- A deployment with nothing in it. -/
def bareDeployment : Workload := ⟨.deployment, "default", "web", "uid-1", []⟩

/-- Back to the revision before. -/
def toPrevious : Order := ⟨Revision.previousTarget, false, [], false⟩

/-- An event that tells of the rollback of a deployment. -/
def doneEvent (name : Text) : Event :=
  ⟨Ending.doneReason, "", Kind.deployment.name, name⟩

/-- A cluster that takes a deployment's rollback and tells of the rollback of
`name`. -/
def telling (name : Text) : Unit → (q : Backend.Request) → q.Answer × Unit
  | _, .eventWatermark _ => (.ok "4242", ())
  | _, .rollBackDeployment .. => (.ok (), ())
  | _, .watchEvents .. => (.ok [⟨false, .event (doneEvent name), []⟩], ())
  | _, .stopWatch => (.ok (), ())
  | _, .getWorkload .. => (.error .malformed, ())
  | _, .listSnapshots .. => (.error .malformed, ())
  | _, .listReplicaSets .. => (.error .malformed, ())
  | _, .patchWorkload .. => (.error .malformed, ())

/-- **Somebody else's verdict can decide.** It is not so that what decides the
rollback of a deployment is about that deployment: here the only event there is
tells of another one, and ends the wait. -/
theorem foreign_event_decides :
    ¬ ∀ (w : Workload) (order : Order)
        (t : List (Step Backend.Request Backend.Request.Answer)) (ending : Ending),
      order.dryRun = false → Path (rollBack .deployment w order) t (.ok ending) →
      ending.IsTold →
      ∃ mark script turn e, .asked (.watchEvents w.space mark) (.ok script) ∈ t
        ∧ turn ∈ script ∧ turn.arrival = .event e ∧ Ending.ofEvent? e = some ending
        ∧ e.IsAbout w := by
  intro h
  obtain ⟨mark, script, turn, e, hask, hturn, ha, -, -, hname⟩ :=
    h bareDeployment toPrevious _ _ rfl (Program.path_steps (telling "api") _ ()) trivial
  obtain ⟨_, hs⟩ := Program.exists_eq_answer_of_mem_steps _ hask
  -- the cluster delivers one event, about a deployment of another name
  cases hs
  rw [List.mem_singleton] at hturn
  subst hturn
  cases ha
  exact absurd hname (by decide)

/-- The event decides the rollback that it is about as well, and in the same way. -/
theorem deciding_event_telling_web :
    bareDeployment.kind = .deployment ∧ toPrevious.dryRun = false
      ∧ (∃ mark script passed turn rest e,
        .asked (.watchEvents "default" mark) (.ok script)
            ∈ (rollBack .deployment bareDeployment toPrevious).steps (telling "web") ()
          ∧ script = passed ++ turn :: rest
          ∧ turn.arrival = .event e ∧ Ending.ofEvent? e = some .succeeded)
      ∧ Run.Same Eq ((rollBack .deployment bareDeployment toPrevious).run (telling "web") ())
        ((rollBack .deployment bareDeployment toPrevious).run (telling "api") ()) := by
  obtain ⟨hdecides, -, hsame⟩ := deciding_event bareDeployment toPrevious rfl
  refine ⟨rfl, rfl, ?_, hsame (telling "web") (telling "api") () ⟨fun s q => ?_, fun s q => ?_⟩⟩
  · obtain ⟨mark, script, passed, turn, rest, e, hask, hs, -, ha, he, -⟩ :=
      hdecides _ .succeeded (Program.path_steps (telling "web") _ ()) trivial
    exact ⟨mark, script, passed, turn, rest, e, hask, hs, ha, he⟩
  · cases q <;> rfl
  · cases q <;> rfl

end Rollback
end Rollout
