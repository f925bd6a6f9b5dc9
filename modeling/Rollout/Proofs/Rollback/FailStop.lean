import Rollout.CommandLine.Run
import Rollout.Proofs.Program.Protocol
import Rollout.Proofs.Rollback.Plan

/-!
# Nothing goes on after a failure

Whoever rolls back or looks at a history goes on as long as every request is answered with
what was asked for. The first failure ends it: nothing is tried again, and nothing is
changed after something could not be read. What is open by then is the watch at most, and
it is stopped.

As a protocol (`Backend.failStop`) a conversation with the cluster has three phases. While
it is going everything may be asked but to stop a watch; once a watch is open, only to stop
it; and after a failure, or the stop, nothing. Programs that may stand in front of others
end with a result in the first phase only (`Backend.Continues`). What comes last must not
leave a watch open (`Backend.Finishes`).
-/

namespace Rollout

open Program (Follows Protocol)

namespace Backend

/-- The request was answered with what was asked for. -/
def Request.succeeded (q : Request) (a : q.Answer) : Bool :=
  match q, a with
  | getWorkload .., a => a.isOk
  | listSnapshots .., a => a.isOk
  | listReplicaSets .., a => a.isOk
  | patchWorkload .., a => a.isOk
  | eventWatermark _, a => a.isOk
  | rollBackDeployment .., a => a.isOk
  | watchEvents .., a => a.isOk
  | stopWatch, a => a.isOk

/-- The request opens a watch. -/
def Request.opensWatch : Request → Bool
  | watchEvents .. => true
  | _ => false

/-- **How far a conversation has come.** -/
inductive Phase where
  | going
  /-- A watch is open. -/
  | watching
  /-- Something has failed, or the watch has been stopped. -/
  | ended

/-- **One failure ends a conversation**, and so does the end of the watch. -/
def failStop : Protocol Request Request.Answer Phase where
  allows
    | .going, q => q ≠ .stopWatch
    | .watching, q => q = .stopWatch
    | .ended, _ => False
  next
    | .going, q, a =>
      if q.succeeded a then (if q.opensWatch then .watching else .going) else .ended
    | _, _, _ => .ended

/-- **How something may end that others come after**: with a result only if nothing has
failed, and with no watch open. -/
def Continues {α : Type} : Phase → Outcome α → Prop
  | .going, _ => True
  | .watching, _ => False
  | .ended, r => ∃ e, r = .error e

/-- **How something may end that comes last**: with no watch open. -/
def Finishes {α : Type} (ph : Phase) (_ : Outcome α) : Prop :=
  ph ≠ .watching

section Rules

variable {α β : Type} {p : Talk α} {ends : Phase → Outcome β → Prop}

theorem Continues.finishes {ph : Phase} {r : Outcome α} (h : Continues ph r) : Finishes ph r := by
  rintro rfl
  exact h

/-- What ends as it was answered fails or goes on. -/
theorem continues_next {q : Request} (hq : q.opensWatch = false) {a : q.Answer} {r : Outcome α}
    (hr : q.succeeded a = r.isOk) : Continues (failStop.next .going q a) r := by
  show Continues (if q.succeeded a then (if q.opensWatch then .watching else .going) else .ended) r
  rw [hq, hr]
  cases r with
  | ok a => trivial
  | error e => exact ⟨e, rfl⟩

/-- **Something that others come after** is followed by what they do, and fails as they
may. -/
theorem follows_bind {k : α → Talk β} (h : Follows failStop Continues .going p)
    (hk : ∀ a, Follows failStop ends .going (k a))
    (herror : ∀ ph e, Finishes ph (α := β) (.error e) → ends ph (.error e)) :
    Follows failStop ends .going (p >>= k) := by
  refine h.bind (fun ph a hends => ?_) fun ph e hends => herror ph e hends.finishes
  cases ph with
  | going => exact hk a
  | watching => exact hends.elim
  | ended =>
    obtain ⟨e, he⟩ := hends
    cases he

end Rules

/-! ## Programs that others come after -/

/-- **The program stops at the first failure**, and opens no watch. -/
abbrev FailStops {α : Type} (p : Talk α) : Prop :=
  Follows failStop Continues .going p

section FailStops

variable {α β : Type}

theorem failStops_done (r : Outcome α) : FailStops (.done r) :=
  trivial

theorem FailStops.bind {p : Talk α} {k : α → Talk β} (h : FailStops p)
    (hk : ∀ a, FailStops (k a)) : FailStops (p >>= k) :=
  follows_bind h hk fun ph e hends => by
    cases ph with
    | going => trivial
    | watching => exact hends rfl
    | ended => exact ⟨e, rfl⟩

theorem FailStops.ite {c : Prop} [Decidable c] {p p' : Talk α} (h : FailStops p)
    (h' : FailStops p') : FailStops (if c then p else p') := by
  split
  · exact h
  · exact h'

/-- A request by itself ends as it is answered. -/
theorem failStops_getWorkload (kind : Kind) (space name : Text) :
    FailStops (getWorkload kind space name) :=
  ⟨nofun, fun _ => continues_next rfl rfl⟩

theorem failStops_listSnapshots (space query : Text) : FailStops (listSnapshots space query) :=
  ⟨nofun, fun _ => continues_next rfl rfl⟩

theorem failStops_listReplicaSets (space query : Text) : FailStops (listReplicaSets space query) :=
  ⟨nofun, fun _ => continues_next rfl rfl⟩

theorem failStops_patchWorkload (kind : Kind) (space name : Text) (patch : Bytes) :
    FailStops (patchWorkload kind space name patch) :=
  ⟨nofun, fun _ => continues_next rfl rfl⟩

theorem failStops_eventWatermark (space : Text) : FailStops (eventWatermark space) :=
  ⟨nofun, fun _ => continues_next rfl rfl⟩

theorem failStops_rollBackDeployment (space name : Text) (revision : Int)
    (annotations : Fields Json) : FailStops (rollBackDeployment space name revision annotations) :=
  ⟨nofun, fun _ => continues_next rfl rfl⟩

end FailStops

end Backend

open Backend (Continues FailStops Finishes failStop failStops_done follows_bind)

/-! ## Looking at a history -/

namespace History

theorem failStops_resolve (kind : Kind) (space name : Text) :
    FailStops (resolve kind space name) := by
  refine (Backend.failStops_getWorkload kind space name).bind fun w => ?_
  refine (failStops_done (queryOf w)).bind fun query => ?_
  exact (Backend.failStops_listSnapshots w.space query).bind fun _ => failStops_done _

theorem failStops_resolveReplicaSets (w : Workload) : FailStops (resolveReplicaSets w) := by
  refine (failStops_done (queryOf w)).bind fun query => ?_
  exact (Backend.failStops_listReplicaSets w.space query).bind fun _ => failStops_done _

/-- **Showing a history stops at the first failure.** -/
theorem failStops_view (kind : Kind) (key space name : Text) (revision : Int) :
    FailStops (view kind key space name revision) := by
  show FailStops (viewKind kind key space name revision)
  cases kind with
  | deployment =>
    refine (Backend.failStops_getWorkload .deployment space name).bind fun w => ?_
    refine (failStops_resolveReplicaSets w).bind fun owned => ?_
    refine (failStops_done (.ok noHistory)).ite (FailStops.ite ?_ (failStops_done _))
    exact (failStops_done (findRevision (Revision.byNumber owned) revision)).bind fun child =>
      failStops_done (describedTemplate key child)
  | daemonSet =>
    refine (failStops_resolve .daemonSet space name).bind fun (w, history) => ?_
    refine FailStops.ite (failStops_done _) ?_
    refine (failStops_done (Revision.ordered history)).bind fun all => ?_
    refine FailStops.ite ?_ (failStops_done _)
    refine (failStops_done (findRevision all revision)).bind fun s => ?_
    refine (failStops_done (w.atRevision s)).bind fun recorded => ?_
    exact (failStops_done recorded.template).bind fun template =>
      failStops_done (Template.describe template)
  | statefulSet =>
    refine (failStops_resolve .statefulSet space name).bind fun (w, history) => ?_
    refine FailStops.ite (failStops_done _) ?_
    exact (failStops_done (Revision.ordered history)).bind fun all => failStops_done _

end History

/-! ## Rolling back -/

namespace Rollback

variable {w live : Workload} {order : Order}

/-- **Sending a patch stops at its failure**, which is told in another way. -/
theorem failStops_restore (kind : Kind) (live : Workload) (s : Snapshot) :
    FailStops (restore kind live s) := by
  refine (Backend.failStops_patchWorkload kind live.space live.name s.data).attempt
    fun ph r hends => ?_
  cases ph with
  | going => cases r with
    | ok _ => trivial
    | error e => cases e with
      | malformed => trivial
      | rollout e => cases e <;> trivial
  | watching => exact hends.elim
  | ended =>
    obtain ⟨e, rfl⟩ := hends
    cases e with
    | malformed => exact ⟨_, rfl⟩
    | rollout e => cases e <;> exact ⟨_, rfl⟩

theorem failStops_rollBackSnapshots (kind : Kind) (w : Workload) (order : Order) :
    FailStops (rollBackSnapshots kind w order) := by
  rw [rollBackSnapshots_eq]
  refine FailStops.ite (failStops_done _) ?_
  refine (History.failStops_resolve kind w.space w.name).bind fun (live, history) => ?_
  refine (failStops_done (planned live history order.target)).bind fun (s, template) => ?_
  refine FailStops.ite ?_ ?_
  · exact (failStops_done (Template.describe template)).bind fun _ => failStops_done _
  · refine (failStops_done live.template).bind fun current => ?_
    exact FailStops.ite (failStops_done _) (failStops_restore kind live s)

theorem failStops_previewDeployment (w : Workload) (target : Int) :
    FailStops (previewDeployment w target) := by
  refine (History.failStops_resolveReplicaSets w).bind fun owned => ?_
  refine FailStops.ite (failStops_done _) ?_
  refine (failStops_done (Revision.select (Revision.byNumber owned) target)).bind fun child => ?_
  exact (failStops_done (Template.describe child.template)).bind fun _ => failStops_done _

/-- **Whoever waits stops the watch** that is open. -/
theorem finishes_awaitEnding (cancelled : Bool) (script : Script) :
    Follows failStop Finishes .watching (awaitEnding cancelled script) := by
  refine Follows.notes_bind ?_ (wait cancelled script).notes
  refine ⟨rfl, fun stopped => ?_⟩
  cases stopped with
  | error e => exact nofun
  | ok =>
    refine Follows.notes_bind ?_ (wait cancelled script).afterwards
    exact nofun

/-- **A deployment that is handed over**: nothing is asked after a failure, and the watch
that is opened last is stopped. -/
theorem finishes_submit (w : Workload) (order : Order) :
    Follows failStop Finishes .going (submit w order) := by
  refine follows_bind (Backend.failStops_eventWatermark w.space) (fun watermark => ?_)
    fun _ _ h => h
  refine follows_bind
    (Backend.failStops_rollBackDeployment w.space w.name order.target order.annotations)
    (fun _ => ?_) fun _ _ h => h
  refine ⟨nofun, fun opened => ?_⟩
  cases opened with
  | error e => exact nofun
  | ok script => exact finishes_awaitEnding order.cancelled script

/-- **Every rollback stops at the first failure** and leaves no watch open. -/
theorem finishes_rollBack (kind : Kind) (w : Workload) (order : Order) :
    Follows failStop Finishes .going (rollBack kind w order) := by
  have hkind : Follows failStop Finishes .going (rollBackKind kind w order) := by
    cases kind with
    | deployment =>
      refine follows_bind (failStops_done w.paused) (fun paused => ?_) fun _ _ h => h
      cases paused with
      | true => exact nofun
      | false =>
        show Follows failStop Finishes .going
          (if order.dryRun then previewDeployment w order.target else submit w order)
        split
        · exact (failStops_previewDeployment w order.target).mono fun _ _ h => h.finishes
        · exact finishes_submit w order
    | daemonSet =>
      exact (failStops_rollBackSnapshots .daemonSet w order).mono fun _ _ h => h.finishes
    | statefulSet =>
      exact (failStops_rollBackSnapshots .statefulSet w order).mono fun _ _ h => h.finishes
  unfold rollBack
  split
  · exact nofun
  · refine hkind.attempt fun ph r hends => ?_
    cases r with
    | ok ending => exact hends
    | error e => cases e <;> exact hends

end Rollback

/-! ## Command lines -/

namespace CommandLine

/-- **The task is done by what is registered for its kind.** -/
theorem carryOut_eq (plan : Plan) :
    carryOut plan =
      match plan.task with
      | .show revision => do
        let text ← History.view plan.kind plan.config.causeKey plan.space plan.name revision
        return ⟨printed text, ""⟩
      | .undo target dryRun cause => do
        let w ← Backend.getWorkload plan.kind plan.space plan.name
        let ending ← Rollback.rollBack plan.kind w (orderOf plan target dryRun cause)
        return endingTexts plan ending := by
  simp only [carryOut, History.viewerFor_kind, Rollback.rollbackerFor_kind]
  rfl

/-- **What a command line asks for is done up to the first failure**, and leaves no watch
open. -/
theorem finishes_carryOut (plan : Plan) :
    Follows failStop Finishes .going (carryOut plan) := by
  rw [carryOut_eq]
  split
  · refine follows_bind (History.failStops_view ..) (fun _ => ?_) fun _ _ h => h
    exact nofun
  · refine follows_bind (Backend.failStops_getWorkload ..) (fun w => ?_) fun _ _ h => h
    refine (Rollback.finishes_rollBack plan.kind w _).bind (fun ph _ h => ?_) fun _ _ h => h
    exact h

end CommandLine
end Rollout
