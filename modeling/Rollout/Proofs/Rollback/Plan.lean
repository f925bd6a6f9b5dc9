import Rollout.Proofs.Api.Reply
import Rollout.Proofs.Revision.Choice
import Rollout.Proofs.Revision.Data
import Rollout.Rollback.Basic

/-!
# What a rollback plans

Everything a rollback in snapshots decides, it decides from what it has read: the
workload and its history (`Api.Memory.history`), and then the snapshot to go back to and
the template that it stands for (`Rollback.planned`). A dry run and a real run read the
same and plan the same, and part only where the one shows the template and the other
installs it.

So a run is known from its plan: without one it ends with the failure and has changed
nothing (`Rollback.endsReading_of_planned_error`), a dry run shows what is planned
(`Rollback.endsReading_dryRun`), and a real run skips it (`Rollback.endsReading_skip`) or
sends the snapshot's patch (`Rollback.endsIn_restore`).
-/

namespace Rollout

open Program (EndsIn endsIn_done)
open Api (Memory workloadRead workloadPatched snapshotsListed)

namespace Api.Memory

/-- **What a rollback reads**: the workload and the snapshots that it controls. -/
def history (m : Memory) (kind : Kind) (space name : Text) :
    Outcome (Workload × List Snapshot) := do
  let w ← workloadRead kind space name (m.answer (.read kind space name))
  let query ← History.queryOf w
  let candidates ← snapshotsListed w.space (m.answer (.listRevisions w.space query))
  return (w, History.ownedSnapshots w candidates)

end Api.Memory

namespace Rollback

variable {α β : Type} {m m' : Memory}

/-- **The program ends and has only read**: the cluster is as it was, and nothing that
was asked could have changed it. -/
def EndsReading (p : Backend.Talk α) (m : Memory) (r : Outcome α) : Prop :=
  ∃ asked, EndsIn Memory.reply p m r m asked ∧ ∀ q ∈ asked, q.isMutating = false

theorem endsReading_done (r : Outcome α) (m : Memory) : EndsReading (.done r) m r :=
  ⟨[], endsIn_done r m, fun _ hq => absurd hq List.not_mem_nil⟩

theorem EndsReading.ask {q : Backend.Request} {f : q.Answer → Backend.Talk α} {r : Outcome α}
    (hq : q.isMutating = false) (h : EndsReading (f (m.reply q).1) m r) :
    EndsReading (.ask q f) m r := by
  obtain ⟨asked, h, hasked⟩ := h
  refine ⟨q :: asked, EndsIn.ask ?_, List.forall_mem_cons.mpr ⟨hq, hasked⟩⟩
  rw [m.reply_state_of_not_isMutating hq]
  exact h

/-- **A program that only reads follows the computation** of what it ends with, step by
step. -/
theorem EndsReading.bind {p : Backend.Talk α} {k : α → Backend.Talk β} {x : Outcome α}
    {f : α → Outcome β} (hp : EndsReading p m x) (hk : ∀ a, x = .ok a → EndsReading (k a) m (f a)) :
    EndsReading (p >>= k) m (x >>= f) := by
  obtain ⟨asked, hp, hasked⟩ := hp
  cases x with
  | error e => exact ⟨asked, hp.bind_error, hasked⟩
  | ok a =>
    obtain ⟨asked', hk, hasked'⟩ := hk a rfl
    exact ⟨asked ++ asked', hp.bind hk, List.forall_mem_append.mpr ⟨hasked, hasked'⟩⟩

/-- A computation on the way asks nothing. -/
theorem endsReading_outcome (x : Outcome α) (m : Memory) :
    EndsReading (liftM x : Backend.Talk α) m x :=
  endsReading_done x m

/-- A computation that failed is where the program ends. -/
theorem endsReading_of_error {x : Outcome α} {k : α → Backend.Talk β} {e : Failure}
    (hx : x = .error e) : EndsReading (liftM x >>= k) m (.error e) := by
  rw [hx]
  exact endsReading_done (.error e) m

theorem EndsReading.log_bind {component event : Text} {level : Level} {fields : Fields Json}
    {k : Unit → Backend.Talk α} {r : Outcome α} (h : EndsReading (k ()) m r) :
    EndsReading (Program.log component event level fields >>= k) m r := by
  obtain ⟨asked, h, hasked⟩ := h
  exact ⟨asked, h.log_bind, hasked⟩

/-! ## Reading -/

/-- **A history is resolved by reading.** -/
theorem endsReading_resolve (m : Memory) (kind : Kind) (space name : Text) :
    EndsReading (History.resolve kind space name) m (m.history kind space name) := by
  have hread : EndsReading (Backend.getWorkload kind space name) m
      (workloadRead kind space name (m.answer (.read kind space name))) :=
    EndsReading.ask rfl (endsReading_done _ m)
  refine hread.bind fun w _ => (endsReading_outcome (History.queryOf w) m).bind fun query _ => ?_
  have hlist : EndsReading (Backend.listSnapshots w.space query) m
      (snapshotsListed w.space (m.answer (.listRevisions w.space query))) :=
    EndsReading.ask rfl (endsReading_done _ m)
  exact hlist.bind fun candidates _ => (endsReading_done _ m).log_bind

/-! ## What is read -/

variable {kind : Kind} {w live : Workload} {order : Order} {history : List Snapshot}

/-- The data of every snapshot that is listed was written. -/
theorem exists_data_eq_encode_of_listed {space : Text} {a : Except Api.CallError (List Json)}
    {candidates : List Snapshot} (h : snapshotsListed space a = .ok candidates) :
    ∀ s ∈ candidates, ∃ d, s.data = Json.encode d := by
  intro s hs
  unfold snapshotsListed at h
  split at h
  · obtain ⟨j, -, hj⟩ := Outcome.mem_of_mapM h s hs
    obtain ⟨raw, -, hdata⟩ := Snapshot.data_eq_encode_of_ofJson hj
    exact ⟨_, hdata⟩
  · cases h

/-- **The data of every snapshot of a history was written.** -/
theorem exists_data_eq_encode {space name : Text}
    (hread : m.history kind space name = .ok (live, history)) :
    ∀ s ∈ history, ∃ d, s.data = Json.encode d := by
  unfold Memory.history at hread
  obtain ⟨found, -, hread⟩ := Outcome.bind_eq_ok_iff.mp hread
  obtain ⟨query, -, hread⟩ := Outcome.bind_eq_ok_iff.mp hread
  obtain ⟨candidates, hlisted, hread⟩ := Outcome.bind_eq_ok_iff.mp hread
  cases hread
  exact fun s hs => exists_data_eq_encode_of_listed hlisted s (List.mem_filter.mp hs).1

/-! ## Planning -/

/-- **What a rollback goes back to**: the snapshot that the target names, and the
template of the workload as it was then. -/
def planned (live : Workload) (history : List Snapshot) (target : Int) :
    Outcome (Snapshot × Json) := do
  let s ← Revision.select history target
  let applied ← live.atRevision s
  let template ← applied.template
  return (s, template)

/-- A plan comes from a snapshot of the history and the workload as it was then. -/
theorem exists_applied_of_planned {s : Snapshot} {target : Int} {template : Json}
    (hplan : planned live history target = .ok (s, template)) :
    s ∈ history ∧ ∃ applied, Revision.select history target = .ok s
      ∧ live.atRevision s = .ok applied ∧ applied.template = .ok template := by
  obtain ⟨s', hselect, hrest⟩ := Outcome.bind_eq_ok_iff.mp hplan
  obtain ⟨applied, happlied, hrest⟩ := Outcome.bind_eq_ok_iff.mp hrest
  obtain ⟨template', htemplate, hrest⟩ := Outcome.bind_eq_ok_iff.mp hrest
  obtain ⟨rfl, rfl⟩ := Prod.mk.inj (Except.ok.inj hrest)
  exact ⟨Revision.mem_of_select hselect, applied, hselect, happlied, htemplate⟩

/-- What is done with a plan. -/
def carriedOut (kind : Kind) (live : Workload) (dryRun : Bool) (s : Snapshot) (template : Json) :
    Backend.Talk Ending :=
  if dryRun then do
    let rendered ← Template.describe template
    return .previewed ("will roll back to " ++ rendered)
  else do
    let current ← live.template
    if template.eqv current then skip live s else restore kind live s

/-- A plan fails for the reasons for which a rollback stops early. -/
theorem planned_of_select_eq_fail {history : List Snapshot} {target : Int} {e : RolloutError}
    (h : Revision.select history target = Outcome.fail e) :
    planned live history target = .error (.rollout e) := by
  rw [planned, h]
  rfl

/-- **A rollback is its plan carried out.** -/
theorem rollBackSnapshots_eq (kind : Kind) (w : Workload) (order : Order) :
    rollBackSnapshots kind w order =
      if order.target < 0 then Program.fail (.revisionNotFound order.target)
      else (do
        let (live, history) ← History.resolve kind w.space w.name
        let (s, template) ← planned live history order.target
        carriedOut kind live order.dryRun s template) := by
  unfold rollBackSnapshots
  split
  · rfl
  · refine bind_congr fun found => ?_
    obtain ⟨live, history⟩ := found
    show (if _ then _ else _) = (liftM (planned live history order.target) >>= _)
    split
    · rename_i hshort
      rw [hshort.1, planned_of_select_eq_fail
        (Revision.select_previousTarget_of_length_le_one hshort.2)]
      rfl
    · rw [planned, Program.liftM_bind, bind_assoc]
      refine bind_congr fun s => ?_
      rw [Program.liftM_bind, bind_assoc]
      refine bind_congr fun applied => ?_
      rw [Program.liftM_bind, bind_assoc]
      exact bind_congr fun template => rfl

/-! ## Carrying out -/

variable {s : Snapshot} {template : Json}

/-- **Without a plan a rollback ends with the failure.** -/
theorem endsReading_of_planned_error (order : Order)
    (hread : m.history kind w.space w.name = .ok (live, history)) {e : Failure}
    (hplan : planned live history order.target = .error e) :
    EndsReading (rollBackSnapshots kind w order) m (.error e) := by
  rw [rollBackSnapshots_eq]
  split
  · rename_i hneg
    rw [planned_of_select_eq_fail (Revision.select_of_neg hneg)] at hplan
    cases hplan
    exact endsReading_done _ m
  · have hresolve := endsReading_resolve m kind w.space w.name
    rw [hread] at hresolve
    refine hresolve.bind (f := fun _ => .error e) fun found hfound => ?_
    obtain rfl := Except.ok.inj hfound
    exact endsReading_of_error hplan

/-- Without a history to plan from a rollback fails. -/
theorem endsReading_of_history_error (order : Order) {e : Failure}
    (hread : m.history kind w.space w.name = .error e) :
    ∃ e', EndsReading (rollBackSnapshots kind w order) m (.error e') := by
  rw [rollBackSnapshots_eq]
  split
  · exact ⟨_, endsReading_done _ m⟩
  · have hresolve := endsReading_resolve m kind w.space w.name
    rw [hread] at hresolve
    exact ⟨e, hresolve.bind (f := fun _ => .error e) nofun⟩

/-- **A planned rollback ends as what is done with the plan.** -/
theorem endsIn_of_planned (order : Order)
    (hread : m.history kind w.space w.name = .ok (live, history))
    (hplan : planned live history order.target = .ok (s, template)) {r : Outcome Ending}
    {asked : List Backend.Request}
    (h : EndsIn Memory.reply (carriedOut kind live order.dryRun s template) m r m' asked) :
    ∃ read, (∀ q ∈ read, q.isMutating = false)
      ∧ EndsIn Memory.reply (rollBackSnapshots kind w order) m r m' (read ++ asked) := by
  rw [rollBackSnapshots_eq]
  split
  · rename_i hneg
    rw [planned_of_select_eq_fail (Revision.select_of_neg hneg)] at hplan
    cases hplan
  · obtain ⟨read, hresolve, hr⟩ := endsReading_resolve m kind w.space w.name
    rw [hread] at hresolve
    refine ⟨read, hr, hresolve.bind ?_⟩
    show EndsIn _ (liftM (planned live history order.target) >>= _) m r m' asked
    rw [hplan]
    exact (endsIn_done (.ok (s, template)) m).bind h

/-- A dry run shows the template. -/
theorem endsReading_dryRun :
    EndsReading (carriedOut kind live true s template) m (do
      let rendered ← Template.describe template
      return .previewed ("will roll back to " ++ rendered)) :=
  (endsReading_outcome (Template.describe template) m).bind fun _ _ => endsReading_done _ m

/-- A real run compares the templates. -/
theorem carriedOut_of_template {current : Json} (hcurrent : live.template = .ok current) :
    carriedOut kind live false s template
      = if template.eqv current then skip live s else restore kind live s := by
  show (liftM live.template >>= _) = _
  rw [hcurrent]
  rfl

/-- **A template that is live already is not installed again.** -/
theorem endsReading_skip {current : Json} (hcurrent : live.template = .ok current)
    (h : template.eqv current = true) :
    EndsReading (carriedOut kind live false s template) m
      (.ok (.skipped ("current template already matches revision " ++ .ofInt s.revision))) := by
  rw [carriedOut_of_template hcurrent, if_pos h]
  exact (endsReading_done _ m).log_bind

/-- **A patch that the cluster accepts installs the template.** -/
theorem endsIn_restore {body object : Json} {patched : Workload}
    (hbody : Json.decode s.data = .ok body)
    (hanswer : m.answer (.patch kind live.space live.name body) = .ok object)
    (hpatched : workloadPatched kind live.space live.name (.ok object) = .ok patched) :
    EndsIn Memory.reply (restore kind live s) m (.ok .succeeded)
      (m.put ⟨kind, live.space, live.name, object⟩)
      [.patchWorkload kind live.space live.name s.data] := by
  have hreply : m.reply (.patchWorkload kind live.space live.name s.data)
      = (.ok patched, m.put ⟨kind, live.space, live.name, object⟩) := by
    simp only [Memory.reply, hbody, hanswer, hpatched]
    rfl
  have hask : EndsIn Memory.reply (Backend.patchWorkload kind live.space live.name s.data) m
      (.ok patched) (m.put ⟨kind, live.space, live.name, object⟩)
      [.patchWorkload kind live.space live.name s.data] := by
    refine EndsIn.ask ?_
    rw [hreply]
    exact endsIn_done _ _
  exact hask.attempt (endsIn_done (.ok Ending.succeeded) _).log_bind

/-! ## The rollback as a whole -/

/-- **How the rollback of a kind ends is how the rollback ends**: what is counted and
logged changes nothing. -/
theorem endsIn_rollBack {σ : Type} {answer : σ → (q : Backend.Request) → q.Answer × σ} {s s' : σ}
    (hkind : w.kind = kind) {r : Outcome Ending} {asked : List Backend.Request}
    (h : EndsIn answer (rollBackKind kind w order) s r s' asked) :
    EndsIn answer (rollBack kind w order) s r s' asked := by
  rw [rollBack, if_neg (not_not_intro hkind), ← List.append_nil asked]
  refine h.attempt ?_
  cases r with
  | ok ending => exact ((endsIn_done _ s').log_bind).count_bind
  | error e =>
    cases e with
    | rollout e => exact ((endsIn_done _ s').log_bind).count_bind
    | malformed => exact endsIn_done _ s'

/-- Daemon sets and stateful sets are rolled back in snapshots. -/
theorem rollBackKind_eq (hkind : kind ≠ .deployment) :
    rollBackKind kind w order = rollBackSnapshots kind w order := by
  cases kind with
  | deployment => exact absurd rfl hkind
  | daemonSet => rfl
  | statefulSet => rfl

end Rollback

namespace Api.Memory

/-- **A rollback against a cluster in memory.** -/
def rolledBack (m : Memory) (seconds : Int) (w : Workload) (order : Rollback.Order) :
    Program.Run Api.Call Memory Ending :=
  m.run (Api.talk seconds (Rollback.rollBack w.kind w order))

end Api.Memory

namespace Rollback

/-- A rollback in snapshots, as the calls that it makes. -/
theorem rolledBack_of_endsIn (seconds : Int) (hkind : w.kind ≠ .deployment) {r : Outcome Ending}
    {asked : List Backend.Request}
    (h : EndsIn Memory.reply (rollBackSnapshots w.kind w order) m r m' asked) :
    (m.rolledBack seconds w order).result = r ∧ (m.rolledBack seconds w order).state = m'
      ∧ (m.rolledBack seconds w order).asked = asked.flatMap (Api.callsOf seconds) := by
  rw [← rollBackKind_eq hkind] at h
  have hrun := endsIn_rollBack rfl h
  rw [Memory.rolledBack, Memory.run_talk]
  exact ⟨hrun.result, hrun.state, congrArg (·.flatMap (Api.callsOf seconds)) hrun.asked⟩

end Rollback
end Rollout
