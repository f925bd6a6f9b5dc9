import Rollout.Proofs.Program.Discipline
import Rollout.Proofs.Rollback.Preview

/-!
# When a cluster is changed

Two of the requests change the cluster, and whoever makes one by mistake cannot take it
back. So they are made under a rule (`Rollback.MayAsk`): a patch is sent only when a
history has been read, a snapshot chosen and applied, and the template differs from the
live one; a deployment is handed to the cluster only when it is not paused and it is known
where the events of its namespace stand; neither follows the other or itself.

The rule looks at what has been asked and answered before, so it is kept on every path,
whatever the cluster does: whichever call fails, and whenever the caller gives up
(`Rollback.changes_are_founded`). How a rollback ends tells whether it has changed
anything (`Rollback.EndsAsPatched`, `Rollback.EndsAsSubmitted`). Whoever only looks at a
history, or at what a rollback would do, makes no such request at all.
-/

namespace Rollout

open Program (Asks Obeys Path Permitted Step asks_ask asks_done obeys_liftM_bind questions)

namespace Backend

/-- The request only reads what is stored. -/
def Request.isReading : Request → Bool
  | getWorkload .. => true
  | listSnapshots .. => true
  | listReplicaSets .. => true
  | _ => false

theorem Request.isMutating_of_isReading {q : Request} (h : q.isReading = true) :
    q.isMutating = false := by
  cases q <;> first | rfl | cases h

/-- What was done in a conversation with the cluster. -/
abbrev Past := List (Step Request Request.Answer)

/-- **The changes that were asked for**, in order. -/
def changes (t : Past) : List Request :=
  questions Request.isMutating t

/-- A change that was asked for is among the changes. -/
theorem changes_ne_nil {t : Past} {q : Request} {a : q.Answer} (hq : q.isMutating = true)
    (h : .asked q a ∈ t) : changes t ≠ [] :=
  List.ne_nil_of_mem (Program.mem_questions_iff.mpr ⟨hq, a, h⟩)

/-- **The program only reads.** -/
abbrev Reads {α : Type} (p : Talk α) : Prop :=
  Asks (fun q : Request => q.isReading = true) p

/-- **Nothing is changed by reading.** -/
theorem changes_eq_nil_of_reads {α : Type} {p : Talk α} (h : Reads p) {t : Past} {r : Outcome α}
    (hpath : Path p t r) : changes t = [] :=
  (((h []).questions_eq fun _ _ hq => Request.isMutating_of_isReading hq).of_path hpath
    Program.permitted_nil).2.1

end Backend

open Api (Memory)
open Backend (Past Reads changes changes_ne_nil)

/-! ## Looking at a history -/

namespace History

/-- **A history is resolved by reading.** -/
theorem reads_resolve (kind : Kind) (space name : Text) : Reads (resolve kind space name) := by
  refine Asks.bind (p := Backend.getWorkload kind space name) (asks_ask rfl asks_done) fun w => ?_
  refine (asks_done (queryOf w)).bind fun query => ?_
  refine Asks.bind (p := Backend.listSnapshots w.space query) (asks_ask rfl asks_done)
    fun candidates => ?_
  exact (asks_done _).note _

theorem reads_resolveReplicaSets (w : Workload) : Reads (resolveReplicaSets w) := by
  refine (asks_done (queryOf w)).bind fun query => ?_
  refine Asks.bind (p := Backend.listReplicaSets w.space query) (asks_ask rfl asks_done)
    fun candidates => ?_
  exact (asks_done _).note _

/-- **A history is shown by reading.** -/
theorem reads_view (kind : Kind) (key space name : Text) (revision : Int) :
    Reads (view kind key space name revision) := by
  refine Asks.note _ (Asks.note _ ?_)
  cases kind with
  | deployment =>
    refine Asks.bind (p := Backend.getWorkload .deployment space name) (asks_ask rfl asks_done)
      fun w => ?_
    refine (reads_resolveReplicaSets w).bind fun owned => ?_
    refine Asks.ite (asks_done (.ok noHistory)) (Asks.ite ?_ (asks_done _))
    exact (asks_done (findRevision (Revision.byNumber owned) revision)).bind fun child =>
      asks_done (describedTemplate key child)
  | daemonSet =>
    refine (reads_resolve .daemonSet space name).bind fun (w, history) => ?_
    refine Asks.ite (asks_done _) ?_
    refine (asks_done (Revision.ordered history)).bind fun all => ?_
    refine Asks.ite ?_ (asks_done _)
    refine (asks_done (findRevision all revision)).bind fun s => ?_
    refine (asks_done (w.atRevision s)).bind fun recorded => ?_
    exact (asks_done recorded.template).bind fun template => asks_done (Template.describe template)
  | statefulSet =>
    refine (reads_resolve .statefulSet space name).bind fun (w, history) => ?_
    refine Asks.ite (asks_done _) ?_
    exact (asks_done (Revision.ordered history)).bind fun all => asks_done _

end History

namespace Rollback

variable {kind : Kind} {w live : Workload} {order : Order} {s : Snapshot} {past : Past}

/-! ## The rule -/

/-- What the answer to a patch makes of the rollback that sent it. -/
def restored (s : Snapshot) : Outcome Workload → Outcome Ending
  | .ok _ => .ok .succeeded
  | .error (.rollout (.backend e)) => Outcome.fail (.backend (.restoring s.revision e))
  | .error e => .error e

/-- **A reason to patch**: what was read before gives a history, the target a snapshot in
it, and the snapshot a template that is not the live one. -/
structure IsFounded (kind : Kind) (w : Workload) (target : Int) (past : Past) (live : Workload)
    (s : Snapshot) : Prop where
  read : .asked (.getWorkload kind w.space w.name) (.ok live) ∈ past
  chosen : ∃ query candidates, .asked (.listSnapshots live.space query) (.ok candidates) ∈ past
    ∧ Revision.select (History.ownedSnapshots live candidates) target = .ok s
  changed : ∃ applied template current, live.atRevision s = .ok applied
    ∧ applied.template = .ok template ∧ live.template = .ok current
    ∧ template.eqv current = false

/-- **What a rollback may ask** after what has been done. -/
def MayAsk (kind : Kind) (w : Workload) (order : Order) (past : Past) : Backend.Request → Prop
  | .patchWorkload k space name data =>
    kind ≠ .deployment ∧ order.dryRun = false ∧ changes past = [] ∧ k = kind
      ∧ ∃ live s, IsFounded kind w order.target past live s
        ∧ space = live.space ∧ name = live.name ∧ data = s.data
  | .rollBackDeployment space name target annotations =>
    kind = .deployment ∧ order.dryRun = false ∧ changes past = [] ∧ w.paused = .ok false
      ∧ space = w.space ∧ name = w.name ∧ target = order.target ∧ annotations = order.annotations
      ∧ ∃ watermark, .asked (.eventWatermark space) (.ok watermark) ∈ past
  | .watchEvents space watermark =>
    kind = .deployment ∧ ∃ earlier later,
      past = earlier ++ .asked (.rollBackDeployment space w.name order.target order.annotations)
        (.ok ()) :: later
      ∧ .asked (.eventWatermark space) (.ok watermark) ∈ earlier
  | _ => True

/-- Reading is always allowed. -/
theorem mayAsk_of_isReading {q : Backend.Request} (h : q.isReading = true) :
    MayAsk kind w order past q := by
  cases q <;> trivial

/-- A change is only asked for where none has been. -/
theorem changes_eq_nil_of_mayAsk {q : Backend.Request} (h : MayAsk kind w order past q)
    (hq : q.isMutating = true) : order.dryRun = false ∧ changes past = [] := by
  cases q with
  | patchWorkload => exact ⟨h.2.1, h.2.2.1⟩
  | rollBackDeployment => exact ⟨h.2.1, h.2.2.1⟩
  | _ => cases hq

/-- **How a rollback in snapshots ends**: as its patch did if it sent one, and not well
otherwise. -/
structure EndsAsPatched (past : Past) (r : Outcome Ending) : Prop where
  restored : ∀ k space name data a, .asked (.patchWorkload k space name data) a ∈ past →
    ∃ s : Snapshot, data = s.data ∧ r = restored s a
  succeeded : r = .ok .succeeded → changes past ≠ []

/-- **How a deployment's rollback ends**: unknown only if the cluster has taken it. -/
def EndsAsSubmitted (w : Workload) (order : Order) (past : Past) (r : Outcome Ending) : Prop :=
  r = .ok .unknown →
    .asked (.rollBackDeployment w.space w.name order.target order.annotations) (.ok ()) ∈ past

/-- Where nothing was sent the end is not a good one. -/
theorem endsAsPatched_of_changes_eq_nil {r : Outcome Ending} (h : changes past = [])
    (hr : r ≠ .ok .succeeded) : EndsAsPatched past r where
  restored _ _ _ _ _ hmem := absurd h (changes_ne_nil rfl hmem)
  succeeded heq := absurd heq hr

/-- Notes play no part. -/
theorem EndsAsPatched.noted {r : Outcome Ending} (h : EndsAsPatched past r) (n : Note) :
    EndsAsPatched (past ++ [.noted n]) r where
  restored k space name data a hmem := by
    obtain hmem | hmem := List.mem_append.mp hmem
    · exact h.restored k space name data a hmem
    · cases List.mem_singleton.mp hmem
  succeeded heq := by
    rw [changes, Program.questions_append, Program.questions_noted, List.append_nil]
    exact h.succeeded heq

/-- What was sent first decides. -/
theorem endsAsPatched_of_asked (h : changes past = []) (k : Kind) (space name : Text)
    (a : Outcome Workload) :
    EndsAsPatched (past ++ [.asked (.patchWorkload k space name s.data) a]) (restored s a) where
  restored k' space' name' data' a' hmem := by
    obtain hmem | hmem := List.mem_append.mp hmem
    · exact absurd h (changes_ne_nil rfl hmem)
    · cases List.mem_singleton.mp hmem
      exact ⟨s, rfl, rfl⟩
  succeeded _ := changes_ne_nil rfl (List.mem_append_right past List.mem_cons_self)

/-! ## Rollbacks in snapshots -/

/-- **A resolved history was read.** -/
theorem obeys_resolve (kind : Kind) (space name : Text) (past : Past) :
    Obeys (fun _ q => q.isReading = true) (fun past' r => ∀ live history, r = .ok (live, history) →
      .asked (.getWorkload kind space name) (.ok live) ∈ past'
        ∧ ∃ query candidates, .asked (.listSnapshots live.space query) (.ok candidates) ∈ past'
          ∧ history = History.ownedSnapshots live candidates)
      past (History.resolve kind space name) := by
  refine ⟨rfl, fun a => ?_⟩
  cases a with
  | error e => exact nofun
  | ok w =>
    refine obeys_liftM_bind (fun query _ => ⟨rfl, fun a => ?_⟩) nofun
    cases a with
    | error e => exact nofun
    | ok candidates =>
      rintro live history heq
      cases heq
      exact ⟨by simp, query, candidates, by simp, rfl⟩

/-- **A plan is carried out with reason.** -/
theorem obeys_carriedOut {history : List Snapshot} {template : Json} {query : Text}
    {candidates : List Snapshot} (hkind : kind ≠ .deployment) (hquiet : changes past = [])
    (hread : .asked (.getWorkload kind w.space w.name) (.ok live) ∈ past)
    (hlisted : .asked (.listSnapshots live.space query) (.ok candidates) ∈ past)
    (hhistory : history = History.ownedSnapshots live candidates)
    (hplan : planned live history order.target = .ok (s, template)) :
    Obeys (MayAsk kind w order) EndsAsPatched past
      (carriedOut kind live order.dryRun s template) := by
  obtain ⟨-, applied, hselect, happlied, htemplate⟩ := exists_applied_of_planned hplan
  cases hdry : order.dryRun with
  | true =>
    exact obeys_liftM_bind (fun _ _ => endsAsPatched_of_changes_eq_nil hquiet nofun)
      (fun _ _ => endsAsPatched_of_changes_eq_nil hquiet nofun)
  | false =>
    refine obeys_liftM_bind (fun current hcurrent => ?_)
      (fun _ _ => endsAsPatched_of_changes_eq_nil hquiet nofun)
    split
    · refine endsAsPatched_of_changes_eq_nil ?_ nofun
      rw [changes, Program.questions_append, Program.questions_noted, List.append_nil]
      exact hquiet
    · rename_i hne
      have hfounded : IsFounded kind w order.target past live s := {
        read := hread
        chosen := ⟨query, candidates, hlisted, hhistory ▸ hselect⟩
        changed := ⟨applied, template, current, happlied, htemplate, hcurrent,
          Bool.eq_false_iff.mpr hne⟩ }
      refine ⟨⟨hkind, hdry, hquiet, rfl, live, s, hfounded, rfl, rfl, rfl⟩, fun a => ?_⟩
      have hends := endsAsPatched_of_asked (s := s) hquiet kind live.space live.name a
      cases a with
      | ok patched => exact hends.noted _
      | error e =>
        cases e with
        | malformed => exact hends
        | rollout e => cases e <;> exact hends

/-- **A rollback in snapshots keeps to the rule.** -/
theorem obeys_rollBackSnapshots (hkind : kind ≠ .deployment) :
    Obeys (MayAsk kind w order) EndsAsPatched [] (rollBackSnapshots kind w order) := by
  rw [rollBackSnapshots_eq]
  split
  · exact endsAsPatched_of_changes_eq_nil rfl nofun
  · have hresolve := (obeys_resolve kind w.space w.name []).questions_eq
      fun _ _ hq => Backend.Request.isMutating_of_isReading hq
    refine Obeys.bind (hresolve.mono (fun _ _ _ hq => mayAsk_of_isReading hq) fun _ _ _ h => h)
      ?_ (fun past e _ h => endsAsPatched_of_changes_eq_nil h.1 nofun)
    rintro past ⟨live, history⟩ - ⟨hquiet, hread⟩
    obtain ⟨hlive, query, candidates, hlisted, hhistory⟩ := hread live history rfl
    exact obeys_liftM_bind
      (fun plan hplan => obeys_carriedOut hkind hquiet hlive hlisted hhistory hplan)
      (fun e _ => endsAsPatched_of_changes_eq_nil hquiet nofun)

/-! ## Rollbacks of deployments -/

/-- A preview is shown by reading, and its end is known. -/
theorem obeys_previewDeployment (w : Workload) (target : Int) (past : Past) :
    Obeys (fun _ q => q.isReading = true) (fun _ r => r ≠ .ok .unknown) past
      (previewDeployment w target) := by
  refine Obeys.bind (History.reads_resolveReplicaSets w past) (fun past owned _ _ => ?_)
    (fun _ _ _ _ => nofun)
  show Obeys _ _ past (if (Revision.byNumber owned).length < 2 then _ else _)
  split
  · exact nofun
  · refine obeys_liftM_bind (fun child _ => ?_) (fun _ _ => nofun)
    exact obeys_liftM_bind (fun _ _ => nofun) (fun _ _ => nofun)

/-- The end is awaited on the watch that is open. -/
theorem asks_awaitEnding (cancelled : Bool) (script : Script) :
    Asks (· = Backend.Request.stopWatch) (awaitEnding cancelled script) := by
  refine (Program.asks_notes _).bind fun _ => ?_
  refine Asks.bind (p := Backend.stopWatch) (asks_ask rfl asks_done) fun _ => ?_
  exact (Program.asks_notes _).bind fun _ => asks_done _

/-- **A deployment is handed over under the rule.** -/
theorem obeys_submit (hpaused : w.paused = .ok false) (hreal : order.dryRun = false)
    (hquiet : changes past = []) :
    Obeys (MayAsk .deployment w order) (EndsAsSubmitted w order) past (submit w order) := by
  refine ⟨trivial, fun a => ?_⟩
  cases a with
  | error e => exact nofun
  | ok watermark =>
    have hnone : changes (past ++ [.asked (.eventWatermark w.space) (.ok watermark)]) = [] := by
      rw [changes, Program.questions_append, Program.questions_asked, if_neg nofun, List.append_nil]
      exact hquiet
    refine ⟨⟨rfl, hreal, hnone, hpaused, rfl, rfl, rfl, rfl, watermark, by simp⟩, fun a => ?_⟩
    cases a with
    | error e => exact nofun
    | ok =>
      refine ⟨⟨rfl, _, _, List.append_assoc _ _ _, List.mem_append_right _ (by simp)⟩, fun a => ?_⟩
      cases a with
      | error e => exact nofun
      | ok script =>
        refine (asks_awaitEnding order.cancelled script _).mono ?_ ?_
        · rintro past' q - rfl
          trivial
        · intro past' r hlonger _ _
          exact hlonger.subset (by simp)

/-- **The rollback of a deployment keeps to the rule.** -/
theorem obeys_rollBackDeployment :
    Obeys (MayAsk .deployment w order) (EndsAsSubmitted w order) []
      (rollBackDeployment w order) := by
  refine obeys_liftM_bind (fun paused hpaused => ?_) (fun _ _ => nofun)
  cases paused with
  | true => exact nofun
  | false =>
    cases hdry : order.dryRun with
    | true =>
      exact (obeys_previewDeployment w order.target []).mono
        (fun _ _ _ hq => mayAsk_of_isReading hq) fun _ _ _ hne heq => absurd heq hne
    | false => exact obeys_submit hpaused hdry rfl

/-! ## Rollbacks as a whole -/

/-- **A rollback keeps to a rule** if rolling back workloads of the kind does: what is
counted and logged changes nothing. -/
theorem obeys_rollBack {may : Past → Backend.Request → Prop} {ends : Past → Outcome Ending → Prop}
    (h : Obeys may ends past (rollBackKind kind w order))
    (hnoted : ∀ past r n, ends past r → ends (past ++ [.noted n]) r)
    (hother : ends past (Outcome.fail (.otherKind kind w.kind))) :
    Obeys may ends past (rollBack kind w order) := by
  unfold rollBack
  split
  · exact hother
  · refine h.attempt fun past r _ hr => ?_
    cases r with
    | ok ending => exact hnoted _ _ _ (hnoted _ _ _ hr)
    | error e =>
      cases e with
      | rollout e => exact hnoted _ _ _ (hnoted _ _ _ hr)
      | malformed => exact hr

/-- **Every rollback keeps to the rule**, however it ends. -/
theorem obeys_mayAsk (kind : Kind) (w : Workload) (order : Order) :
    Obeys (MayAsk kind w order) (fun _ _ => True) [] (rollBack kind w order) := by
  refine obeys_rollBack ?_ (fun _ _ _ _ => trivial) trivial
  by_cases hkind : kind = .deployment
  · subst hkind
    exact obeys_rollBackDeployment.mono (fun _ _ _ h => h) fun _ _ _ _ => trivial
  · rw [rollBackKind_eq hkind]
    exact (obeys_rollBackSnapshots hkind).mono (fun _ _ _ h => h) fun _ _ _ _ => trivial

/-- **What a rollback asks it may ask, on every path.** -/
theorem permitted_of_path {t : Past} {r : Outcome Ending} (h : Path (rollBack kind w order) t r) :
    Permitted (MayAsk kind w order) t :=
  ((obeys_mayAsk kind w order).of_path h Program.permitted_nil).1

/-- A rollback in snapshots ends as its patch did. -/
theorem endsAsPatched_of_path (hkind : kind ≠ .deployment) {t : Past} {r : Outcome Ending}
    (h : Path (rollBack kind w order) t r) : EndsAsPatched t r := by
  have hobeys : Obeys (MayAsk kind w order) EndsAsPatched [] (rollBackKind kind w order) := by
    rw [rollBackKind_eq hkind]
    exact obeys_rollBackSnapshots hkind
  exact ((obeys_rollBack hobeys (fun _ _ n h => h.noted n)
    (endsAsPatched_of_changes_eq_nil rfl nofun)).of_path h Program.permitted_nil).2

/-- The end of a deployment's rollback is unknown only if the cluster has taken it. -/
theorem endsAsSubmitted_of_path {t : Past} {r : Outcome Ending}
    (h : Path (rollBack .deployment w order) t r) : EndsAsSubmitted w order t r :=
  ((obeys_rollBack obeys_rollBackDeployment
    (fun _ _ _ h heq => List.mem_append_left _ (h heq)) nofun).of_path h Program.permitted_nil).2

/-- A change that was made was allowed. -/
theorem exists_mayAsk_of_changes_ne_nil {t : Past} (h : Permitted (MayAsk kind w order) t)
    (hchanges : changes t ≠ []) :
    ∃ before q a, .asked q a ∈ t ∧ q.isMutating = true ∧ MayAsk kind w order before q := by
  obtain ⟨q, hq⟩ := List.exists_mem_of_ne_nil _ hchanges
  obtain ⟨hmutating, a, hmem⟩ := Program.mem_questions_iff.mp hq
  obtain ⟨before, after, heq⟩ := List.append_of_mem hmem
  exact ⟨before, q, a, hmem, hmutating, h before q a after heq⟩

/-- What a rollback in snapshots changes, it changes by a patch. -/
theorem exists_patch_of_changes_ne_nil (hkind : kind ≠ .deployment) {t : Past}
    (h : Permitted (MayAsk kind w order) t) (hchanges : changes t ≠ []) :
    ∃ k space name data a, .asked (.patchWorkload k space name data) a ∈ t := by
  obtain ⟨before, q, a, hmem, hmutating, hmay⟩ := exists_mayAsk_of_changes_ne_nil h hchanges
  cases q with
  | patchWorkload k space name data => exact ⟨k, space, name, data, a, hmem⟩
  | rollBackDeployment => exact absurd hmay.1 hkind
  | _ => cases hmutating

/-- A patch that was accepted makes the rollback succeed, and no other does anything but
fail. -/
theorem restored_eq_ok {a : Outcome Workload} {ending : Ending} (h : restored s a = .ok ending) :
    ending = .succeeded ∧ ∃ patched, a = .ok patched := by
  unfold restored at h
  split at h
  · cases h
    exact ⟨rfl, _, rfl⟩
  · cases h
  · cases h

/-- **A rollback in snapshots that has changed anything** ends as its patch did. -/
theorem exists_restored_of_changes_ne_nil (hkind : kind ≠ .deployment) {t : Past}
    {r : Outcome Ending} (h : Path (rollBack kind w order) t r) (hchanges : changes t ≠ []) :
    ∃ k space name, ∃ (s : Snapshot) (a : Outcome Workload),
      .asked (.patchWorkload k space name s.data) a ∈ t ∧ r = restored s a := by
  obtain ⟨k, space, name, data, a, hmem⟩ :=
    exists_patch_of_changes_ne_nil hkind (permitted_of_path h) hchanges
  obtain ⟨s, rfl, heq⟩ := (endsAsPatched_of_path hkind h).restored k space name data a hmem
  exact ⟨k, space, name, s, a, hmem, heq⟩

/-- One that is skipped or previewed has changed nothing. -/
theorem changes_eq_nil_of_ne_succeeded (hkind : kind ≠ .deployment) {t : Past} {ending : Ending}
    (h : Path (rollBack kind w order) t (.ok ending)) (hne : ending ≠ .succeeded) :
    changes t = [] := by
  refine Decidable.byContradiction fun hchanges => ?_
  obtain ⟨_, _, _, s, a, -, heq⟩ := exists_restored_of_changes_ne_nil hkind h hchanges
  exact hne (restored_eq_ok heq.symm).1

/-- A rollback in snapshots succeeds if and only if its patch was accepted. -/
theorem eq_succeeded_iff (hkind : kind ≠ .deployment) {t : Past} {r : Outcome Ending}
    (h : Path (rollBack kind w order) t r) :
    r = .ok .succeeded ↔ ∃ k space name data patched,
      .asked (.patchWorkload k space name data) (.ok patched) ∈ t := by
  have hends := endsAsPatched_of_path hkind h
  constructor
  · intro hr
    obtain ⟨k, space, name, s, a, hmem, heq⟩ :=
      exists_restored_of_changes_ne_nil hkind h (hends.succeeded hr)
    obtain ⟨-, patched, rfl⟩ := restored_eq_ok (heq.symm.trans hr)
    exact ⟨k, space, name, s.data, patched, hmem⟩
  · rintro ⟨k, space, name, data, patched, hmem⟩
    obtain ⟨s, -, heq⟩ := hends.restored k space name data _ hmem
    exact heq

/-- A failed one has changed nothing, unless it failed as its patch did. -/
theorem changes_eq_nil_or_of_error (hkind : kind ≠ .deployment) {t : Past} {e : Failure}
    (h : Path (rollBack kind w order) t (.error e)) :
    changes t = [] ∨ ∃ k space name, ∃ (s : Snapshot) (e' : Failure),
      .asked (.patchWorkload k space name s.data) (.error e') ∈ t
        ∧ .error e = restored s (.error e') := by
  refine Decidable.or_iff_not_imp_left.mpr fun hchanges => ?_
  obtain ⟨k, space, name, s, a, hmem, heq⟩ := exists_restored_of_changes_ne_nil hkind h hchanges
  cases a with
  | ok patched => cases heq
  | error e' => exact ⟨k, space, name, s, e', hmem, heq⟩

/-- **Changes are made with reason.** Whatever the cluster answers, looking at a history
and previewing a rollback change nothing, and a rollback makes one change at most.

The patch of a rollback in snapshots is sent after the history was read and a snapshot
chosen and applied, if that changes the template; the rollback succeeds if and only if
its patch was accepted, and ends in any other way without a patch, unless it fails as its
patch did. A deployment is handed over if it is not paused and after the watermark was
given; events are only awaited after it was accepted, and behind the watermark that was
given before; the end is unknown only if it was accepted. -/
theorem changes_are_founded :
    (∀ kind key space name revision (t : Past) r,
      Path (History.view kind key space name revision) t r → changes t = [])
    ∧ ∀ kind w order (t : Past) r, Path (rollBack kind w order) t r →
      (order.dryRun = true → changes t = []) ∧ (changes t).length ≤ 1
      ∧ (kind ≠ .deployment →
        (∀ before k space name data a after,
          t = before ++ .asked (.patchWorkload k space name data) a :: after →
          k = kind ∧ ∃ live s, IsFounded kind w order.target before live s
            ∧ space = live.space ∧ name = live.name ∧ data = s.data)
        ∧ (r = .ok .succeeded ↔ ∃ k space name data patched,
          .asked (.patchWorkload k space name data) (.ok patched) ∈ t)
        ∧ (∀ detail, r = .ok (.skipped detail) → changes t = [])
        ∧ (∀ rendered, r = .ok (.previewed rendered) → changes t = [])
        ∧ ∀ e, r = .error e → changes t = [] ∨ ∃ k space name, ∃ (s : Snapshot) (e' : Failure),
          .asked (.patchWorkload k space name s.data) (.error e') ∈ t
            ∧ .error e = restored s (.error e'))
      ∧ (kind = .deployment →
        (∀ before space name target annotations a after,
          t = before ++ .asked (.rollBackDeployment space name target annotations) a :: after →
          w.paused = .ok false
            ∧ ∃ watermark, .asked (.eventWatermark space) (.ok watermark) ∈ before)
        ∧ (∀ before space watermark a after,
          t = before ++ .asked (.watchEvents space watermark) a :: after →
          ∃ earlier later, before = earlier ++ .asked (.rollBackDeployment space w.name
              order.target order.annotations) (.ok ()) :: later
            ∧ .asked (.eventWatermark space) (.ok watermark) ∈ earlier)
        ∧ (r = .ok .unknown → .asked (.rollBackDeployment w.space w.name order.target
            order.annotations) (.ok ()) ∈ t)) := by
  refine ⟨fun kind key space name revision t r h =>
    Backend.changes_eq_nil_of_reads (History.reads_view kind key space name revision) h,
    fun kind w order t r h => ?_⟩
  have hpermitted := permitted_of_path h
  refine ⟨fun hdry => ?_, hpermitted.length_questions_le_one fun before q hmay hq =>
    (changes_eq_nil_of_mayAsk hmay hq).2, fun hkind => ?_, fun hkind => ?_⟩
  · -- a change would have been allowed in a real run only
    refine Decidable.byContradiction fun hchanges => ?_
    obtain ⟨before, q, a, -, hmutating, hmay⟩ := exists_mayAsk_of_changes_ne_nil hpermitted hchanges
    exact Bool.false_ne_true ((changes_eq_nil_of_mayAsk hmay hmutating).1.symm.trans hdry)
  · refine ⟨fun before k space name data a after heq => (hpermitted _ _ _ _ heq).2.2.2,
      eq_succeeded_iff hkind h, ?_, ?_, ?_⟩
    · rintro detail rfl
      exact changes_eq_nil_of_ne_succeeded hkind h nofun
    · rintro rendered rfl
      exact changes_eq_nil_of_ne_succeeded hkind h nofun
    · rintro e rfl
      exact changes_eq_nil_or_of_error hkind h
  · subst hkind
    refine ⟨fun before space name target annotations a after heq => ?_,
      fun before space watermark a after heq => (hpermitted _ _ _ _ heq).2,
      endsAsSubmitted_of_path h⟩
    obtain ⟨-, -, -, hpaused, -, -, -, -, hwatermark⟩ := hpermitted _ _ _ _ heq
    exact ⟨hpaused, hwatermark⟩

theorem changes_are_founded_web :
    let t := (rollBack .daemonSet webWorkload ⟨1, false, [], false⟩).steps Memory.reply
      (webCluster [webRevision 1 webPatch])
    (changes t).length ≤ 1
      ∧ ∃ before after patched live s, t = before ++ .asked (.patchWorkload .daemonSet live.space
          live.name s.data) (.ok patched) :: after
        ∧ IsFounded .daemonSet webWorkload 1 before live s := by
  intro t
  obtain ⟨-, hone, hsnapshots, -⟩ := changes_are_founded.2 .daemonSet webWorkload
    ⟨1, false, [], false⟩ t _ (Program.path_steps Memory.reply _ _)
  obtain ⟨hfounded, hsucceeded, -⟩ := hsnapshots nofun
  have hends : (Program.run Memory.reply (rollBack .daemonSet webWorkload ⟨1, false, [], false⟩)
      (webCluster [webRevision 1 webPatch])).result.toOption = some .succeeded := by
    decide +kernel
  obtain ⟨k, space, name, data, patched, hmem⟩ := hsucceeded.mp (Outcome.eq_ok_of_toOption hends)
  obtain ⟨before, after, heq⟩ := List.append_of_mem hmem
  obtain ⟨rfl, live, s, hreason, rfl, rfl, rfl⟩ := hfounded before k space name data _ after heq
  exact ⟨hone, before, after, patched, live, s, heq, hreason⟩

end Rollback

end Rollout
