import Rollout.Proofs.Program.Reading
import Rollout.Proofs.Revision.ByNumber
import Rollout.Proofs.Rollback.Mutation

/-!
# A revision shown is the revision previewed

Who wants to go back to a revision can look at it in the history first, or ask for a
preview of the rollback. The two go different ways: one looks the number up and describes
what it finds, the other chooses a target as a rollback does. Still they show the same
template, and fail for the same reasons (`Rollback.preview_shows_what_history_shows`).

For a daemon set both come to one computation on the history (`Rollback.shown`); only
where there is no history at all does one say so and the other miss the revision. For a
deployment both take the last replica set that is listed under the number; the history
adds the cause of the revision to what it describes, and the preview wants two revisions to
begin with.
-/

namespace Rollout

open Program (Asks asks_done outcome outcome_attempt outcome_bind outcome_liftM)

/-- A result changed after the last step. -/
theorem Outcome.map_bind {α β γ : Type} (x : Outcome α) (f : α → Outcome β) (g : β → γ) :
    (x >>= f).map g = x >>= fun a => (f a).map g := by
  cases x <;> rfl

namespace Rollback

open History (describedTemplate findRevision noHistory resolve resolveReplicaSets viewDaemonSet
  viewDeployment)

variable {b : (q : Backend.Request) → q.Answer} {w : Workload} {order : Order} {n : Int}

/-! ## Daemon sets -/

/-- **What is shown of a recorded revision**: the template of the workload as it was then. -/
def shown (live : Workload) (history : List Snapshot) (n : Int) : Outcome Text := do
  let all ← Revision.ordered history
  let s ← findRevision all n
  let recorded ← live.atRevision s
  let template ← recorded.template
  Template.describe template

/-- The history shows it where there is one. -/
theorem outcome_viewDaemonSet (hn : 0 < n) (key space name : Text) :
    outcome b (viewDaemonSet key space name n)
      = outcome b (resolve .daemonSet space name) >>= fun found =>
        if found.2.isEmpty then .ok noHistory else shown found.1 found.2 n := by
  rw [viewDaemonSet, outcome_bind]
  refine bind_congr fun found => ?_
  obtain ⟨live, history⟩ := found
  show outcome b (if history.isEmpty then _ else _) = if history.isEmpty then _ else _
  split
  · rfl
  · rw [outcome_bind, outcome_liftM]
    refine bind_congr fun all => ?_
    simp only [outcome_bind, outcome_liftM]

/-- The preview shows it in any case. -/
theorem outcome_rollBackSnapshots (kind : Kind) (hdry : order.dryRun = true)
    (hn : 0 < order.target) :
    outcome b (rollBackSnapshots kind w order)
      = outcome b (resolve kind w.space w.name) >>= fun found =>
        (shown found.1 found.2 order.target).map fun text =>
          .previewed ("will roll back to " ++ text) := by
  rw [rollBackSnapshots_eq, if_neg (Int.not_lt.mpr (Int.le_of_lt hn)), outcome_bind]
  refine bind_congr fun found => ?_
  obtain ⟨live, history⟩ := found
  show outcome b (liftM (planned live history order.target) >>= _) = _
  rw [outcome_bind, outcome_liftM, planned, Revision.select_of_pos hn, hdry, shown]
  simp only [bind_assoc, Outcome.map_bind]
  refine bind_congr fun all => bind_congr fun s => bind_congr fun recorded => ?_
  refine bind_congr fun template => ?_
  show outcome b (liftM (Template.describe template) >>= _) = _
  rw [outcome_bind, outcome_liftM]
  cases Template.describe template <;> rfl

/-- **Both show the same of a history** that is not empty. -/
theorem outcome_daemonSet (hdry : order.dryRun = true) (hn : 0 < order.target)
    (hhistory : ∀ live history,
      outcome b (resolve .daemonSet w.space w.name) = .ok (live, history) → history ≠ [])
    (key : Text) :
    outcome b (rollBackSnapshots .daemonSet w order)
      = (outcome b (viewDaemonSet key w.space w.name order.target)).map
        fun text => .previewed ("will roll back to " ++ text) := by
  rw [outcome_rollBackSnapshots .daemonSet hdry hn, outcome_viewDaemonSet hn, Outcome.map_bind]
  cases hfound : outcome b (resolve .daemonSet w.space w.name) with
  | error e => rfl
  | ok found =>
    have hne : found.2.isEmpty = false :=
      List.isEmpty_eq_false_iff.mpr (hhistory found.1 found.2 hfound)
    show _ = (if found.2.isEmpty then _ else shown found.1 found.2 order.target).map _
    rw [hne]
    rfl

/-- A dry run only reads. -/
theorem reads_rollBackSnapshots (kind : Kind) (hdry : order.dryRun = true) :
    Backend.Reads (rollBackSnapshots kind w order) := by
  rw [rollBackSnapshots_eq]
  refine Asks.ite (asks_done _) ((History.reads_resolve kind w.space w.name).bind fun found => ?_)
  refine (asks_done (planned found.1 found.2 order.target)).bind fun plan => ?_
  rw [hdry]
  exact (asks_done (Template.describe plan.2)).bind fun rendered => asks_done _

/-! ## Deployments -/

/-- **Both take the last replica set of the number**: of at least two numbers, so that there is
a history to go back in, and described without a cause. -/
theorem outcome_previewDeployment (hn : 0 < n) {space name key : Text}
    (hread : b (.getWorkload .deployment space name) = .ok w)
    (howned : ∀ owned, outcome b (resolveReplicaSets w) = .ok owned →
      (∃ r ∈ owned, ∃ r' ∈ owned, r.revision ≠ r'.revision)
      ∧ ∀ r, owned.reverse.find? (fun r => r.revision = n) = some r →
        Fields.given? r.annotations.fields key = none) :
    outcome b (previewDeployment w n)
      = (outcome b (viewDeployment key space name n)).map .previewed := by
  rw [previewDeployment, viewDeployment, outcome_bind, outcome_bind, Outcome.map_bind]
  show _ = b (.getWorkload .deployment space name) >>= _
  rw [hread]
  show _ = (outcome b (resolveReplicaSets w >>= _)).map _
  rw [outcome_bind, Outcome.map_bind]
  cases hresolved : outcome b (resolveReplicaSets w) with
  | error e => rfl
  | ok owned =>
    obtain ⟨⟨r, hr, r', hr', hne⟩, hcause⟩ := howned owned hresolved
    have hlength := Revision.two_le_length_byNumber hr hr' hne
    have hisEmpty : (Revision.byNumber owned).isEmpty = false :=
      List.isEmpty_eq_false_iff.mpr (List.ne_nil_of_length_pos (Nat.zero_lt_of_lt hlength))
    show outcome b (if (Revision.byNumber owned).length < 2 then _ else _)
      = (outcome b (if (Revision.byNumber owned).isEmpty then _ else if 0 < n then _ else _)).map _
    rw [if_neg (Nat.not_lt.mpr hlength), hisEmpty, if_neg Bool.false_ne_true, if_pos hn,
      Revision.select_of_distinct hn (Revision.distinct_byNumber owned), outcome_bind, outcome_bind,
      Outcome.map_bind, outcome_liftM]
    cases hfound : findRevision (Revision.byNumber owned) n with
    | error e => rfl
    | ok child =>
      have hlast := Revision.find?_eq_some_of_findRevision hfound
      rw [Revision.find?_byNumber] at hlast
      have hdescribed : describedTemplate key child = Template.describe child.template := by
        rw [describedTemplate, hcause child hlast]
      have htarget : n ≠ Revision.previousTarget := Int.ne_of_gt hn
      show outcome b (liftM (Template.describe child.template) >>= fun rendered =>
          pure (Ending.previewed (if n = Revision.previousTarget then _ else rendered)))
        = (outcome b (liftM (describedTemplate key child))).map Ending.previewed
      simp only [outcome_bind, outcome_liftM, hdescribed, if_neg htarget]
      cases Template.describe child.template <;> rfl

/-- A dry run only reads. -/
theorem reads_previewDeployment (w : Workload) (target : Int) :
    Backend.Reads (previewDeployment w target) :=
  fun past => (obeys_previewDeployment w target past).mono (fun _ _ _ h => h) fun _ _ _ _ => trivial

/-! ## Runs -/

/-- A dry run of a rollback comes to what that of its kind comes to. -/
theorem outcome_rollBack {kind : Kind} (hkind : w.kind = kind) :
    outcome b (rollBack kind w order) = outcome b (rollBackKind kind w order) := by
  rw [rollBack, if_neg (not_not_intro hkind), outcome_attempt]
  cases outcome b (rollBackKind kind w order) with
  | ok ending => rfl
  | error e => cases e <;> rfl

/-- A rollback only reads if that of its kind does. -/
theorem reads_rollBack {kind : Kind} (hkind : Backend.Reads (rollBackKind kind w order)) :
    Backend.Reads (rollBack kind w order) :=
  fun past => obeys_rollBack (hkind past) (fun _ _ _ _ => trivial) trivial

/-- **A preview shows what the history shows.** Let reading leave a cluster as it is, and
let a revision be named by its number. For a daemon set that has a history, a dry run of a
rollback shows the text that a look at the revision shows; for a deployment that is not
paused and has revisions of two numbers, it does so if the last replica set that is listed
under the number has no cause under the annotation that the history shows. Where the one
fails, the other fails with the same error. -/
theorem preview_shows_what_history_shows {σ : Type}
    {answer : σ → (q : Backend.Request) → q.Answer × σ} {s : σ}
    (hstill : ∀ q, q.isReading = true → (answer s q).2 = s) (hn : 0 < order.target)
    (hdry : order.dryRun = true) (key : Text) :
    (∀ w, w.kind = .daemonSet →
      (∀ live history, ((resolve .daemonSet w.space w.name).run answer s).result
        = .ok (live, history) → history ≠ []) →
      ((rollBack .daemonSet w order).run answer s).result
        = (((History.view .daemonSet key w.space w.name order.target).run answer s).result).map
          fun text => .previewed ("will roll back to " ++ text))
    ∧ ∀ w space name, w.kind = .deployment → w.paused = .ok false →
      (answer s (.getWorkload .deployment space name)).1 = .ok w →
      (∀ owned, ((resolveReplicaSets w).run answer s).result = .ok owned →
        (∃ r ∈ owned, ∃ r' ∈ owned, r.revision ≠ r'.revision)
        ∧ ∀ r, owned.reverse.find? (fun r => r.revision = order.target) = some r →
          Fields.given? r.annotations.fields key = none) →
      ((rollBack .deployment w order).run answer s).result
        = (((History.view .deployment key space name order.target).run answer s).result).map
          .previewed := by
  have hanswer : ∀ q : Backend.Request, q.isReading = true → answer s q = ((answer s q).1, s) :=
    fun q hq => Prod.ext rfl (hstill q hq)
  refine ⟨fun w hkind hhistory => ?_, fun w space name hkind hpaused hread howned => ?_⟩
  · have hreads : Backend.Reads (rollBackKind .daemonSet w order) :=
      reads_rollBackSnapshots .daemonSet hdry
    rw [(History.reads_resolve .daemonSet w.space w.name).run_eq hanswer] at hhistory
    rw [(reads_rollBack hreads).run_eq hanswer, outcome_rollBack hkind,
      (History.reads_view .daemonSet key w.space w.name order.target).run_eq hanswer]
    exact outcome_daemonSet hdry hn hhistory key
  · have hdeployment : rollBackKind .deployment w order = previewDeployment w order.target := by
      show (liftM w.paused >>= _) = _
      rw [hpaused, hdry]
      rfl
    have hreads : Backend.Reads (rollBackKind .deployment w order) :=
      hdeployment ▸ reads_previewDeployment w order.target
    rw [(History.reads_resolveReplicaSets w).run_eq hanswer] at howned
    rw [(reads_rollBack hreads).run_eq hanswer, outcome_rollBack hkind, hdeployment,
      (History.reads_view .deployment key space name order.target).run_eq hanswer]
    exact outcome_previewDeployment hn hread howned

/-- A deployment. -/
def webDeployment : Fields Json :=
  [("metadata", .obj [("name", .str "web"), ("namespace", .str "default"), ("uid", .str "u-1")]),
   ("spec", .obj webSpec)]

/-- A replica set of it. -/
def webReplicaSet (revision : Text) (image : Text) : Json :=
  .obj [("metadata", .obj [("name", .str "web-1"), ("namespace", .str "default"),
      ("annotations", .obj [(revisionKey, .str revision)]),
      ("ownerReferences", .arr [.obj [("uid", .str "u-1"), ("controller", .bool true)]])]),
    ("spec", .obj [("template", .obj (webTemplate image))])]

/-- A cluster that holds the daemon set with one revision, and the deployment with two, of
which the first is listed twice. -/
def webBoth : Api.Memory :=
  { webCluster [webRevision 1 webPatch] with
    workloads := [⟨.daemonSet, "default", "web", .obj webSet⟩,
      ⟨.deployment, "default", "web", .obj webDeployment⟩]
    replicaSets := some [webReplicaSet "1" "web:1", webReplicaSet "2" "web:2",
      webReplicaSet "1" "web:0"] }

theorem preview_shows_what_history_shows_web :
    let order : Order := ⟨1, true, [], false⟩
    let deployment : Workload := ⟨.deployment, "default", "web", "u-1",
      Api.withKind .deployment webDeployment⟩
    ((rollBack .daemonSet webWorkload order).run Api.Memory.reply webBoth).result
      = ((History.view .daemonSet changeCauseKey "default" "web" 1).run Api.Memory.reply
        webBoth).result.map (fun text => .previewed ("will roll back to " ++ text))
    ∧ ((rollBack .deployment deployment order).run Api.Memory.reply webBoth).result
      = ((History.view .deployment changeCauseKey "default" "web" 1).run Api.Memory.reply
        webBoth).result.map .previewed := by
  intro order deployment
  have hstill : ∀ q : Backend.Request, q.isReading = true → (webBoth.reply q).2 = webBoth :=
    fun q hq => webBoth.reply_state_of_not_isMutating (Backend.Request.isMutating_of_isReading hq)
  have htarget : 0 < order.target := by decide
  have hpreview := preview_shows_what_history_shows hstill htarget rfl changeCauseKey
  refine ⟨hpreview.1 webWorkload rfl ?_, hpreview.2 deployment "default" "web" rfl rfl rfl ?_⟩
  · rintro live history hhistory rfl
    have hlength : (((resolve .daemonSet "default" "web").run Api.Memory.reply
        webBoth).result.toOption.map fun found => found.2.length) = some 1 := by
      decide +kernel
    rw [show ((resolve .daemonSet "default" "web").run Api.Memory.reply webBoth).result = _ from
      hhistory] at hlength
    cases hlength
  · intro owned howned
    have hlisted : (((resolveReplicaSets deployment).run Api.Memory.reply
        webBoth).result.toOption.map fun owned => (owned.map ReplicaSet.revision,
          owned.all fun r => (Fields.given? r.annotations.fields changeCauseKey).isNone))
        = some ([1, 2, 1], true) := by
      decide +kernel
    rw [howned] at hlisted
    obtain ⟨hnumbers, hnone⟩ := Prod.mk.inj (Option.some.inj hlisted)
    have hmem : ∀ n ∈ [(1 : Int), 2, 1], ∃ r ∈ owned, r.revision = n := fun n hn =>
      List.mem_map.mp (hnumbers ▸ hn)
    obtain ⟨r, hr, hone⟩ := hmem 1 (by decide)
    obtain ⟨r', hr', htwo⟩ := hmem 2 (by decide)
    refine ⟨⟨r, hr, r', hr', by rw [hone, htwo]; decide⟩, fun last hlast => ?_⟩
    have hlisted := List.mem_reverse.mp (List.mem_of_find?_eq_some hlast)
    exact Option.isNone_iff_eq_none.mp (List.all_eq_true.mp hnone last hlisted)

end Rollback
end Rollout
