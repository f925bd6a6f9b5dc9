import Rollout.Proofs.Program.Alike
import Rollout.Proofs.Revision.ByNumber
import Rollout.Proofs.Rollback.Mutation

/-!
# Only a workload's own history counts

What a cluster lists for a workload's labels may hold entries of others, and nobody says in
which order it is listed. Neither must have any influence: two clusters that differ in
what they list only (`Backend.DifferInListing`), and there in foreign entries or in the
order, show the same history and are rolled back in the same way, with the same requests
and, where it fails, the same message (`History.only_owned_history_counts`).

Whose entries are foreign is known from the workload that is read, so that the statement
starts with the first request. For replica sets the order is free only where no number
repeats; elsewhere the last one listed counts.
-/

namespace Rollout

open Outcome (TellAlike)
open Program (Alike Asks Run asks_ask asks_done)

/-! ## Listings -/

/-- **Listings that differ in foreign entries**: they may come in anywhere, and go. -/
inductive DiffersInForeign {α : Type} (own : α → Bool) : List α → List α → Prop where
  | nil : DiffersInForeign own [] []
  | cons (a : α) {xs ys : List α} :
      DiffersInForeign own xs ys → DiffersInForeign own (a :: xs) (a :: ys)
  | inserted {a : α} {xs ys : List α} (h : own a = false) :
      DiffersInForeign own xs ys → DiffersInForeign own xs (a :: ys)
  | removed {a : α} {xs ys : List α} (h : own a = false) :
      DiffersInForeign own xs ys → DiffersInForeign own (a :: xs) ys

/-- **A listing of the same**: with other foreign entries, and in any order where the order
is free. -/
def IsRelisting {α : Type} (own : α → Bool) (free : Prop) (xs ys : List α) : Prop :=
  ∃ mid, DiffersInForeign own xs mid ∧ (mid = ys ∨ free ∧ mid.Perm ys)

section Listings

variable {α : Type} {own : α → Bool} {free : Prop} {xs ys : List α}

/-- What is one's own is listed in both. -/
theorem DiffersInForeign.filter_eq (h : DiffersInForeign own xs ys) :
    xs.filter own = ys.filter own := by
  induction h with
  | nil => rfl
  | cons a _ ih => rw [List.filter_cons, List.filter_cons, ih]
  | inserted ha _ ih => rw [List.filter_cons_of_neg (by simp [ha]), ih]
  | removed ha _ ih => rw [List.filter_cons_of_neg (by simp [ha]), ih]

/-- **What is one's own** is the same, or the same in another order. -/
theorem IsRelisting.filter (h : IsRelisting own free xs ys) :
    xs.filter own = ys.filter own ∨ free ∧ (xs.filter own).Perm (ys.filter own) := by
  obtain ⟨mid, hmid, rfl | ⟨hfree, hperm⟩⟩ := h
  · exact .inl hmid.filter_eq
  · rw [hmid.filter_eq]
    exact .inr ⟨hfree, hperm.filter own⟩

theorem IsRelisting.filter_perm (h : IsRelisting own free xs ys) :
    (xs.filter own).Perm (ys.filter own) := by
  obtain heq | ⟨-, hperm⟩ := h.filter
  · rw [heq]
  · exact hperm

end Listings

namespace Backend

/-- The request lists what is recorded. -/
def Request.isListing : Request → Bool
  | listSnapshots .. => true
  | listReplicaSets .. => true
  | _ => false

/-- **Answers that differ in listing only**, seen from the workload of an identity: the same
snapshots of its own are listed, in any order, and the same replica sets of its own, in any
order if their numbers are distinct. All else is the same. -/
def AnswerAlike (uid : Text) : (q : Request) → q.Answer → q.Answer → Prop
  | .listSnapshots .., a, a' =>
    TellAlike (IsRelisting (fun s : Snapshot => isControlledBy s.owners uid) True) a a'
  | .listReplicaSets .., a, a' =>
    TellAlike (fun xs => IsRelisting (fun r : ReplicaSet => isControlledBy r.owners uid)
      (Revision.Distinct (xs.filter fun r => isControlledBy r.owners uid)) xs) a a'
  | _, a, a' => a = a'

/-- **Two clusters that differ in listing only.** They change in the same way. -/
structure DifferInListing {σ : Type} (uid : Text)
    (answer answer' : σ → (q : Request) → q.Answer × σ) : Prop where
  answers : ∀ s q, AnswerAlike uid q (answer s q).1 (answer' s q).1
  states : ∀ s q, (answer s q).2 = (answer' s q).2

variable {uid : Text} {w : Workload}

theorem eq_of_answerAlike {q : Request} {a a' : q.Answer} (hq : q.isListing = false)
    (h : AnswerAlike uid q a a') : a = a' := by
  cases q with
  | listSnapshots => cases hq
  | listReplicaSets => cases hq
  | _ => exact h

/-- What lists nothing goes on in the same way. -/
theorem alike_of_asks {α : Type} {p : Talk α}
    (h : Asks (fun q : Request => q.isListing = false) p) :
    Alike (AnswerAlike uid) (TellAlike Eq) p p :=
  h.alike fun _ _ _ hq ha => eq_of_answerAlike hq ha

end Backend

open Backend (AnswerAlike DifferInListing)

variable {uid : Text} {w : Workload} {σ : Type}
  {answer answer' : σ → (q : Backend.Request) → q.Answer × σ}

namespace History

/-! ## What is resolved -/

/-- What is resolved for a workload that was read. -/
def resolved (w : Workload) : Backend.Talk (Workload × List Snapshot) := do
  let query ← queryOf w
  let candidates ← Backend.listSnapshots w.space query
  let history := ownedSnapshots w candidates
  noteResolved "history_resolved" w candidates.length history.length
  return (w, history)

/-- **A history is resolved** for the workload that is read first. -/
theorem resolve_eq (kind : Kind) (space name : Text) :
    resolve kind space name = Backend.getWorkload kind space name >>= resolved :=
  rfl

/-- A workload's own snapshots are resolved in some order. -/
theorem alike_resolved (hw : w.uid = uid) :
    Alike (AnswerAlike uid) (TellAlike fun found found' => found.1 = w ∧ found'.1 = w
      ∧ found.2.Perm found'.2) (resolved w) (resolved w) := by
  subst hw
  refine Program.alike_self_bind (queryOf w) fun query => .ask fun a a' ha => ?_
  cases ha with
  | ok h => exact .note _ _ (.done (.ok ⟨rfl, rfl, h.filter_perm⟩))
  | error he => exact .done (.error he)

/-- Replica sets as they are resolved: the same, or the same in another order where no number
repeats. -/
def SameEntries (xs ys : List ReplicaSet) : Prop :=
  xs = ys ∨ Revision.Distinct xs ∧ xs.Perm ys

theorem alike_resolveReplicaSets (hw : w.uid = uid) :
    Alike (AnswerAlike uid) (TellAlike SameEntries) (resolveReplicaSets w)
      (resolveReplicaSets w) := by
  subst hw
  refine Program.alike_self_bind (queryOf w) fun query => .ask fun a a' ha => ?_
  cases ha with
  | ok h => exact .note _ _ (.done (.ok h.filter))
  | error he => exact .done (.error he)

section SameEntries

variable {xs ys : List ReplicaSet}

theorem SameEntries.perm (h : SameEntries xs ys) : xs.Perm ys := by
  obtain rfl | ⟨-, h⟩ := h
  · exact .refl _
  · exact h

theorem SameEntries.byNumber (h : SameEntries xs ys) :
    SameEntries (Revision.byNumber xs) (Revision.byNumber ys) := by
  obtain rfl | ⟨hdistinct, hperm⟩ := h
  · exact .inl rfl
  · refine .inr ?_
    rw [Revision.byNumber_of_distinct hdistinct,
      Revision.byNumber_of_distinct (hperm.pairwise hdistinct fun hab => hab.symm)]
    exact ⟨hdistinct, hperm⟩

theorem SameEntries.isEmpty_eq (h : SameEntries xs ys) : xs.isEmpty = ys.isEmpty :=
  h.perm.isEmpty_eq

theorem SameEntries.findRevision_eq (h : SameEntries xs ys) (n : Int) :
    findRevision xs n = findRevision ys n := by
  obtain rfl | ⟨hdistinct, hperm⟩ := h
  · rfl
  · exact Revision.findRevision_of_perm hperm hdistinct n

theorem SameEntries.sorted_eq (h : SameEntries xs ys) :
    Revision.sorted xs = Revision.sorted ys := by
  obtain rfl | ⟨hdistinct, hperm⟩ := h
  · rfl
  · exact Revision.sorted_eq_of_perm hperm (Revision.pairwise_sorted_of_distinct hdistinct)

end SameEntries

/-! ## Showing a history -/

/-- **The first question is for the workload**, whose answer says what is foreign. -/
theorem same_getWorkload_bind {α : Type} {kind : Kind} {space name : Text} {s : σ}
    {k k' : Workload → Backend.Talk α} (h : DifferInListing uid answer answer')
    (huid : ∀ w, (answer s (.getWorkload kind space name)).1 = .ok w → w.uid = uid)
    (hk : ∀ w, w.uid = uid → Alike (AnswerAlike uid) (TellAlike Eq) (k w) (k' w)) :
    Run.Same (TellAlike Eq) ((Backend.getWorkload kind space name >>= k).run answer s)
      ((Backend.getWorkload kind space name >>= k').run answer' s) := by
  have hanswer : answer s (.getWorkload kind space name)
      = answer' s (.getWorkload kind space name) :=
    Prod.ext (h.answers s (.getWorkload kind space name)) (h.states s _)
  refine Run.same_ask hanswer ?_
  cases hw : (answer s (.getWorkload kind space name)).1 with
  | error e => exact ⟨.error rfl, rfl, rfl⟩
  | ok w => exact (hk w (huid w hw)).run (fun s q => ⟨h.answers s q, h.states s q⟩) _

/-- **A history is shown alike.** -/
theorem same_view (h : DifferInListing uid answer answer') {s : σ} {kind : Kind}
    {space name : Text}
    (huid : ∀ w, (answer s (.getWorkload kind space name)).1 = .ok w → w.uid = uid)
    (key : Text) (revision : Int) :
    Run.Same (TellAlike Eq) ((viewKind kind key space name revision).run answer s)
      ((viewKind kind key space name revision).run answer' s) := by
  cases kind with
  | deployment =>
    refine same_getWorkload_bind h huid fun w hw => ?_
    refine (alike_resolveReplicaSets hw).bind fun owned owned' howned => ?_
    have hchildren := howned.byNumber
    simp only [hchildren.isEmpty_eq, hchildren.findRevision_eq revision, hchildren.sorted_eq]
    refine Backend.alike_of_asks (Asks.ite (asks_done _) (Asks.ite ?_ (asks_done _)))
    exact (asks_done _).bind fun child => asks_done (describedTemplate key child)
  | daemonSet =>
    rw [viewKind, viewDaemonSet, resolve_eq, bind_assoc]
    refine same_getWorkload_bind h huid fun w hw => (alike_resolved hw).bind ?_
    rintro ⟨w₁, history⟩ ⟨w₂, history'⟩ ⟨rfl, rfl, hperm⟩
    simp only [hperm.isEmpty_eq]
    split
    · exact .done (.ok rfl)
    · refine Program.alike_liftM_bind (Revision.tellAlike_ordered hperm) fun all _ heq => ?_
      subst heq
      refine Backend.alike_of_asks (Asks.ite ?_ (asks_done _))
      refine (asks_done (findRevision all revision)).bind fun s => ?_
      refine (asks_done (w₂.atRevision s)).bind fun recorded => ?_
      exact (asks_done recorded.template).bind fun template =>
        asks_done (Template.describe template)
  | statefulSet =>
    rw [viewKind, viewStatefulSet, resolve_eq, bind_assoc]
    refine same_getWorkload_bind h huid fun w hw => (alike_resolved hw).bind ?_
    rintro ⟨w₁, history⟩ ⟨w₂, history'⟩ ⟨rfl, rfl, hperm⟩
    simp only [hperm.isEmpty_eq]
    split
    · exact .done (.ok rfl)
    · refine Program.alike_liftM_bind (Revision.tellAlike_ordered hperm) fun all _ heq => ?_
      subst heq
      exact .done (.ok rfl)

end History

namespace Rollback

open History (alike_resolved alike_resolveReplicaSets same_getWorkload_bind)

/-! ## Rolling back -/

/-- What a plan comes to is done without listing anything. -/
theorem asks_carriedOut (kind : Kind) (live : Workload) (dryRun : Bool) (s : Snapshot)
    (template : Json) :
    Asks (fun q : Backend.Request => q.isListing = false)
      (carriedOut kind live dryRun s template) := by
  refine Asks.ite ?_ ?_
  · exact (asks_done (Template.describe template)).bind fun rendered => asks_done _
  · refine (asks_done live.template).bind fun current => Asks.ite ?_ ?_
    · exact (asks_done _).note _
    · refine asks_ask rfl fun a => ?_
      cases a with
      | ok patched => exact (asks_done _).note _
      | error e =>
        cases e with
        | malformed => exact asks_done _
        | rollout e => cases e <;> exact asks_done _

/-- A deployment is handed over without listing anything. -/
theorem asks_submit (w : Workload) (order : Order) :
    Asks (fun q : Backend.Request => q.isListing = false) (submit w order) := by
  refine Asks.bind (p := Backend.eventWatermark w.space) (asks_ask rfl asks_done) fun mark => ?_
  refine Asks.bind (p := Backend.rollBackDeployment w.space w.name order.target order.annotations)
    (asks_ask rfl asks_done) fun _ => Asks.note _ ?_
  refine Asks.bind (p := Backend.watchEvents w.space mark) (asks_ask rfl asks_done) fun script => ?_
  refine (asks_awaitEnding order.cancelled script).mono ?_
  rintro q rfl
  rfl

/-- From rearranged histories the same is planned. -/
theorem tellAlike_planned {live : Workload} {history history' : List Snapshot}
    (h : history.Perm history') (target : Int) :
    TellAlike Eq (planned live history target) (planned live history' target) :=
  (Revision.tellAlike_select h target).bind fun _ _ heq => heq ▸ Outcome.tellAlike_refl _

/-- **A rollback in snapshots goes alike.** -/
theorem same_rollBackSnapshots (h : DifferInListing uid answer answer') {s : σ} {kind : Kind}
    (huid : ∀ live, (answer s (.getWorkload kind w.space w.name)).1 = .ok live → live.uid = uid)
    (order : Order) :
    Run.Same (TellAlike Eq) ((rollBackSnapshots kind w order).run answer s)
      ((rollBackSnapshots kind w order).run answer' s) := by
  rw [rollBackSnapshots_eq]
  split
  · exact ⟨.error rfl, rfl, rfl⟩
  · rw [History.resolve_eq, bind_assoc]
    refine same_getWorkload_bind h huid fun live hlive => (alike_resolved hlive).bind ?_
    rintro ⟨live₁, history⟩ ⟨live₂, history'⟩ ⟨rfl, rfl, hperm⟩
    refine Program.alike_liftM_bind (tellAlike_planned hperm order.target) fun plan _ heq => ?_
    subst heq
    exact Backend.alike_of_asks (asks_carriedOut kind live₂ order.dryRun plan.1 plan.2)

/-- **The rollback of a deployment goes alike.** -/
theorem alike_rollBackDeployment (hw : w.uid = uid) (order : Order) :
    Alike (AnswerAlike uid) (TellAlike Eq) (rollBackDeployment w order)
      (rollBackDeployment w order) := by
  refine Program.alike_self_bind w.paused fun paused => ?_
  split
  · exact .done (.error rfl)
  · split
    · refine (alike_resolveReplicaSets hw).bind fun owned owned' howned => ?_
      have hperm := howned.byNumber.perm
      simp only [hperm.length_eq]
      split
      · exact .done (.error rfl)
      · refine Program.alike_liftM_bind (Revision.tellAlike_select hperm order.target)
          fun child _ heq => ?_
        subst heq
        exact Program.alike_self_bind (Template.describe child.template) fun rendered =>
          .done (.ok rfl)
    · exact Backend.alike_of_asks (asks_submit w order)

/-- What is counted and logged at the end does not matter. -/
theorem same_rollBack (h : DifferInListing uid answer answer') {s : σ} {kind : Kind}
    {order : Order}
    (hkind : Run.Same (TellAlike Eq) ((rollBackKind kind w order).run answer s)
      ((rollBackKind kind w order).run answer' s)) :
    Run.Same (TellAlike Eq) ((rollBack kind w order).run answer s)
      ((rollBack kind w order).run answer' s) := by
  unfold rollBack
  split
  · exact ⟨.error rfl, rfl, rfl⟩
  · refine hkind.attempt fun r r' s hr => ?_
    refine Alike.run ?_ (fun s q => ⟨h.answers s q, h.states s q⟩) s
    cases hr with
    | ok heq => exact .note _ _ (.note _ _ (.done (.ok heq)))
    | @error e e' he =>
      cases e with
      | rollout e =>
        cases e' with
        | rollout e' => exact .note _ _ (.note _ _ (.done (.error he)))
        | malformed => cases he
      | malformed =>
        cases e' with
        | rollout e' => cases he
        | malformed => exact .done (.error rfl)

end Rollback

namespace History

open Rollback (Order rollBack)

/-- **Only a workload's own history counts, in whatever order it is listed.** Let two
clusters differ in what they list only, and there in entries that the workload which is
looked at does not control, or in the order: in any for snapshots, and for replica sets if
the numbers of its own are distinct. Then a history is shown alike and a rollback goes
alike: both end with the same result, or with errors of the same name, message and status,
after the same requests. The workload is the one that is read, and for the rollback of a
deployment the one that is given. -/
theorem only_owned_history_counts (h : DifferInListing uid answer answer') (s : σ) :
    (∀ kind key space name revision,
      (∀ w, (answer s (.getWorkload kind space name)).1 = .ok w → w.uid = uid) →
      Run.Same (TellAlike Eq) ((view kind key space name revision).run answer s)
        ((view kind key space name revision).run answer' s))
    ∧ (∀ kind w order, kind ≠ .deployment →
      (∀ live, (answer s (.getWorkload kind w.space w.name)).1 = .ok live → live.uid = uid) →
      Run.Same (TellAlike Eq) ((rollBack kind w order).run answer s)
        ((rollBack kind w order).run answer' s))
    ∧ (∀ w order, w.uid = uid →
      Run.Same (TellAlike Eq) ((rollBack .deployment w order).run answer s)
        ((rollBack .deployment w order).run answer' s)) := by
  refine ⟨fun kind key space name revision huid => ?_, fun kind w order hkind huid => ?_,
    fun w order hw => ?_⟩
  · have hview := same_view h huid key revision
    exact ⟨hview.result, hview.state, hview.asked⟩
  · refine Rollback.same_rollBack h ?_
    rw [Rollback.rollBackKind_eq hkind]
    exact Rollback.same_rollBackSnapshots h huid order
  · exact Rollback.same_rollBack h ((Rollback.alike_rollBackDeployment hw order).run
      (fun s q => ⟨h.answers s q, h.states s q⟩) s)

/-- A cluster that holds the daemon set and lists these. -/
def webListing (snapshots : List Snapshot) (replicaSets : List ReplicaSet) (_ : Unit) :
    (q : Backend.Request) → q.Answer × Unit
  | .listSnapshots .. => (.ok snapshots, ())
  | .listReplicaSets .. => (.ok replicaSets, ())
  | q => (((Rollback.webCluster []).reply q).1, ())

/-- A snapshot that a workload controls. -/
def webOwned (uid : Text) (revision : Int) : Snapshot :=
  ⟨"web-1", "default", revision, Json.encode Rollback.webPatch, [⟨"", "", uid, "", true⟩], [], []⟩

/-- A replica set that a workload controls. -/
def webChild (uid : Text) (revision : Int) : ReplicaSet :=
  ⟨"web-1", "default", revision, .obj (Rollback.webTemplate "web:1"), [], [⟨"", "", uid, "", true⟩]⟩

/-- Two entries listed the other way round, with a foreign one between them. -/
theorem isRelisting_of_swap {α : Type} {own : α → Bool} {free : Prop} (hfree : free) {foreign : α}
    (hforeign : own foreign = false) (a b : α) : IsRelisting own free [a, b] [b, foreign, a] :=
  ⟨[a, b, foreign], .cons a (.cons b (.inserted hforeign .nil)),
    .inr ⟨hfree, @List.perm_append_comm _ [a] [b, foreign]⟩⟩

theorem only_owned_history_counts_web :
    let answer := webListing [webOwned "u-1" 1, webOwned "u-1" 2]
      [webChild "u-1" 1, webChild "u-1" 2]
    let answer' := webListing [webOwned "u-1" 2, webOwned "u-2" 1, webOwned "u-1" 1]
      [webChild "u-1" 2, webChild "u-2" 1, webChild "u-1" 1]
    let order : Order := ⟨1, true, [], false⟩
    let deployment : Workload := ⟨.deployment, "default", "web", "u-1", []⟩
    Run.Same (TellAlike Eq)
        ((view .daemonSet changeCauseKey "default" "web" 1).run answer ())
        ((view .daemonSet changeCauseKey "default" "web" 1).run answer' ())
      ∧ Run.Same (TellAlike Eq) ((rollBack .daemonSet Rollback.webWorkload order).run answer ())
        ((rollBack .daemonSet Rollback.webWorkload order).run answer' ())
      ∧ Run.Same (TellAlike Eq) ((rollBack .deployment deployment order).run answer ())
        ((rollBack .deployment deployment order).run answer' ()) := by
  intro answer answer' order deployment
  have hdiffer : DifferInListing "u-1" answer answer' := by
    refine ⟨fun s q => ?_, fun s q => ?_⟩
    · cases q with
      | listSnapshots => exact .ok (isRelisting_of_swap trivial rfl _ _)
      | listReplicaSets => exact .ok (isRelisting_of_swap (by decide) rfl _ _)
      | _ => rfl
    · cases q <;> rfl
  have huid : ∀ w, (answer () (.getWorkload .daemonSet "default" "web")).1 = .ok w →
      w.uid = "u-1" := by
    intro w hw
    cases hw
    rfl
  obtain ⟨hview, hrollback, hdeployment⟩ := only_owned_history_counts hdiffer ()
  exact ⟨hview .daemonSet changeCauseKey "default" "web" 1 huid,
    hrollback .daemonSet Rollback.webWorkload order nofun huid, hdeployment deployment order rfl⟩

end History
end Rollout
