import Rollout.Proofs.History.Agreement
import Rollout.Proofs.Revision.LastListed
import Rollout.Proofs.Rollback.Plan
import Rollout.Proofs.Template.Refusal

/-!
# Previews where numbers repeat

A number that repeats makes a history of snapshots unusable. Replica sets are more patient: of
those that share a number the last one that is listed stands for it, and the preview of a
deployment's rollback chooses among the numbers. So it wants two numbers, not two replica sets,
and with these neither the error about a repeated number nor the one about a short history can
come up (`Rollback.preview_tolerates_repeated_numbers`).

The preview makes one request, so that nothing has to be known about the cluster but the answer
to it.
-/

namespace Rollout
namespace Rollback

open History (ownedReplicaSets queryOf resolveReplicaSets)
open Outcome (FailsOnly failsOnly_error)
open Program (EndsIn endsIn_done)
open Revision (IsLastListed IsSecondHighest byNumber numbers previousTarget select)

variable {w : Workload} {order : Order} {name : Text} {owned : List ReplicaSet} {target : Int}

/-! ## What is shown of replica sets -/

/-- **What a preview shows** of the replica sets that are a deployment's own. -/
def previewOf (name : Text) (owned : List ReplicaSet) (target : Int) : Outcome Ending :=
  let children := byNumber owned
  if children.length < 2 then Outcome.fail (.noRolloutHistory .deployment name)
  else do
    let child ← select children target
    let rendered ← Template.describe child.template
    return .previewed (if target = previousTarget then "\n" ++ rendered else rendered)

/-- Two numbers are wanted. -/
theorem previewOf_of_card_lt (h : (numbers owned).card < 2) :
    previewOf name owned target = Outcome.fail (.noRolloutHistory .deployment name) := by
  rw [← Revision.length_byNumber] at h
  exact if_pos h

theorem previewOf_of_le_card (h : 2 ≤ (numbers owned).card) :
    previewOf name owned target = select (byNumber owned) target >>= fun child =>
      (Template.describe child.template).map fun text =>
        .previewed (if target = previousTarget then "\n" ++ text else text) := by
  rw [← Revision.length_byNumber] at h
  rw [previewOf]
  simp only [if_neg (Nat.not_lt.mpr h)]
  refine bind_congr fun child => ?_
  cases Template.describe child.template <;> rfl

/-- **For the previous number** the second highest is shown, after a blank line. -/
theorem exists_previewOf_previous (h : 2 ≤ (numbers owned).card) :
    ∃ n r, IsSecondHighest (numbers owned) n ∧ IsLastListed owned n r
      ∧ previewOf name owned previousTarget
        = (Template.describe r.template).map fun text => .previewed ("\n" ++ text) := by
  obtain ⟨n, r, hn, hr, hselect⟩ := Revision.exists_select_byNumber_previous h
  refine ⟨n, r, hn, hr, ?_⟩
  rw [previewOf_of_le_card h, hselect]
  rfl

/-- **For a number that is listed** its last replica set is shown. -/
theorem exists_previewOf_named (h : 2 ≤ (numbers owned).card) (htarget : 0 < target)
    (hmem : target ∈ numbers owned) :
    ∃ r, IsLastListed owned target r
      ∧ previewOf name owned target = (Template.describe r.template).map .previewed := by
  obtain ⟨r, hr, hselect⟩ := Revision.exists_select_byNumber htarget hmem
  refine ⟨r, hr, ?_⟩
  rw [previewOf_of_le_card h, hselect]
  simp only [if_neg (show target ≠ previousTarget from Int.ne_of_gt htarget)]
  rfl

/-- Other numbers are not found. -/
theorem previewOf_of_not_mem (h : 2 ≤ (numbers owned).card)
    (htarget : target < 0 ∨ 0 < target ∧ target ∉ numbers owned) :
    previewOf name owned target = Outcome.fail (.revisionNotFound target) := by
  have hselect : select (byNumber owned) target = Outcome.fail (.revisionNotFound target) := by
    obtain hneg | ⟨hpos, hmem⟩ := htarget
    · exact Revision.select_of_neg hneg
    · exact Revision.select_byNumber_of_not_mem hpos hmem
  rw [previewOf_of_le_card h, hselect]
  rfl

/-- **With two numbers**, a preview fails only where the target is not found or the template
cannot be described. -/
theorem failsOnly_previewOf (h : 2 ≤ (numbers owned).card) :
    FailsOnly (fun e => e = .rollout (.revisionNotFound target) ∨ Template.IsRefusal e)
      (previewOf name owned target) := by
  have hdescribed : ∀ template, FailsOnly (fun e => e = .rollout (.revisionNotFound target)
      ∨ Template.IsRefusal e) (Template.describe template) :=
    fun template e he => .inr (Template.failsOnly_describe template e he)
  obtain hneg | rfl | hpos := Int.lt_trichotomy target 0
  · rw [previewOf_of_not_mem h (.inl hneg)]
    exact failsOnly_error (.inl rfl)
  · obtain ⟨n, r, -, -, hpreview⟩ := @exists_previewOf_previous name _ h
    rw [show previewOf name owned 0 = _ from hpreview]
    exact (hdescribed _).map _
  · by_cases hmem : target ∈ numbers owned
    · obtain ⟨r, -, hpreview⟩ := @exists_previewOf_named name _ _ h hpos hmem
      rw [hpreview]
      exact (hdescribed _).map _
    · rw [previewOf_of_not_mem h (.inr ⟨hpos, hmem⟩)]
      exact failsOnly_error (.inl rfl)

/-! ## The preview as a run -/

/-- A preview is a computation on what is resolved. -/
theorem previewDeployment_eq (w : Workload) (target : Int) :
    previewDeployment w target
      = resolveReplicaSets w >>= fun owned => liftM (previewOf w.name owned target) := by
  refine bind_congr fun owned => ?_
  rw [previewOf]
  simp only
  split
  · rfl
  · rw [Program.liftM_bind]
    refine bind_congr fun child => ?_
    rw [Program.liftM_bind]
    rfl

section Runs

variable {σ : Type} {answer : σ → (q : Backend.Request) → q.Answer × σ} {s : σ} {query : Text}
  {candidates : List ReplicaSet}

/-- **A deployment's own replica sets** are those of the answer that it controls. -/
theorem endsIn_resolveReplicaSets (hquery : queryOf w = .ok query)
    (hlisted : (answer s (.listReplicaSets w.space query)).1 = .ok candidates) :
    EndsIn answer (resolveReplicaSets w) s (.ok (ownedReplicaSets w candidates))
      (answer s (.listReplicaSets w.space query)).2 [.listReplicaSets w.space query] := by
  have hask : EndsIn answer (Backend.listReplicaSets w.space query) s (.ok candidates)
      (answer s (.listReplicaSets w.space query)).2 [.listReplicaSets w.space query] := by
    refine EndsIn.ask ?_
    rw [hlisted]
    exact endsIn_done _ _
  rw [resolveReplicaSets, hquery]
  exact hask.bind (endsIn_done (.ok (ownedReplicaSets w candidates)) _).log_bind

/-- **A dry run comes to what is shown** of the replica sets. -/
theorem result_dryRun (hkind : w.kind = .deployment) (hpaused : w.paused = .ok false)
    (hdry : order.dryRun = true) (hquery : queryOf w = .ok query)
    (hlisted : (answer s (.listReplicaSets w.space query)).1 = .ok candidates) :
    ((rollBack .deployment w order).run answer s).result
      = previewOf w.name (ownedReplicaSets w candidates) order.target := by
  have hpreview : rollBackKind .deployment w order = previewDeployment w order.target := by
    show (liftM w.paused >>= _) = _
    rw [hpaused, hdry]
    rfl
  have hrun := (endsIn_resolveReplicaSets hquery hlisted).bind
    (k := fun owned => liftM (previewOf w.name owned order.target)) (endsIn_done _ _)
  rw [← previewDeployment_eq, ← hpreview] at hrun
  exact (endsIn_rollBack hkind hrun).result

/-- **Previews tolerate repeated numbers.** Let a deployment that is not paused be previewed,
and let its replica sets be listed. That there is no history is said just if they have less than
two numbers. Otherwise neither a repeated number nor a short history is complained of. For the
previous revision the second highest number is shown, after a blank line, and for a revision
that is named that number, each with the template of its last replica set; a number that none
carries, or a negative one, is not found. -/
theorem preview_tolerates_repeated_numbers (hkind : w.kind = .deployment)
    (hpaused : w.paused = .ok false) (hdry : order.dryRun = true) (hquery : queryOf w = .ok query)
    (hlisted : (answer s (.listReplicaSets w.space query)).1 = .ok candidates) :
    let owned := ownedReplicaSets w candidates
    let result := ((rollBack .deployment w order).run answer s).result
    (result = Outcome.fail (.noRolloutHistory .deployment w.name) ↔ (numbers owned).card < 2)
      ∧ (2 ≤ (numbers owned).card →
        (∀ n names, result ≠ Outcome.fail (.duplicateRevision n names))
        ∧ result ≠ Outcome.fail .insufficientHistory
        ∧ (order.target = previousTarget → ∃ n r, IsSecondHighest (numbers owned) n
          ∧ IsLastListed owned n r
          ∧ result = (Template.describe r.template).map fun text => .previewed ("\n" ++ text))
        ∧ (0 < order.target → order.target ∈ numbers owned →
          ∃ r, IsLastListed owned order.target r
            ∧ result = (Template.describe r.template).map .previewed)
        ∧ (order.target < 0 ∨ 0 < order.target ∧ order.target ∉ numbers owned →
          result = Outcome.fail (.revisionNotFound order.target))) := by
  intro owned result
  have hresult : result = previewOf w.name owned order.target :=
    result_dryRun hkind hpaused hdry hquery hlisted
  clear_value result
  subst hresult
  have hfails : ∀ e : RolloutError, 2 ≤ (numbers owned).card →
      e ≠ .revisionNotFound order.target → (∀ cause, e ≠ .conversion cause) →
      previewOf w.name owned order.target ≠ Outcome.fail e := by
    intro e hcard hfound hdescribed heq
    obtain h | ⟨cause, h⟩ | h := failsOnly_previewOf hcard _ heq
    · exact hfound (Failure.rollout.inj h)
    · exact hdescribed cause (Failure.rollout.inj h)
    · cases h
  refine ⟨⟨fun hnone => ?_, previewOf_of_card_lt⟩, fun hcard => ⟨fun n names => ?_, ?_, ?_, ?_, ?_⟩⟩
  · exact Nat.not_le.mp fun hcard => hfails (.noRolloutHistory _ _) hcard nofun nofun hnone
  · exact hfails (.duplicateRevision n names) hcard nofun nofun
  · exact hfails .insufficientHistory hcard nofun nofun
  · intro htarget
    rw [htarget]
    exact exists_previewOf_previous hcard
  · exact exists_previewOf_named hcard
  · exact previewOf_of_not_mem hcard

end Runs

/-- The deployment as it is named to a rollback. -/
def webRolledOut : Workload :=
  ⟨.deployment, "default", "web", "u-1", webDeployment⟩

/-- A replica set of it, as it is read. -/
def webChild (n : Int) (number image : Text) : ReplicaSet :=
  { name := "web-1"
    space := "default"
    revision := n
    template := .obj (webTemplate image)
    annotations := Mapping.ofFields [(revisionKey, .str number)]
    owners := [⟨"", "", "u-1", "", true⟩] }

theorem preview_tolerates_repeated_numbers_web :
    let result (target : Int) :=
      ((rollBack .deployment webRolledOut ⟨target, true, [], false⟩).run Api.Memory.reply
        webBoth).result
    let shown := Template.describe (.obj (webTemplate "web:0"))
    result previousTarget = shown.map (fun text => .previewed ("\n" ++ text))
      ∧ result 1 = shown.map .previewed ∧ result 3 = Outcome.fail (.revisionNotFound 3) := by
  let children := [webChild 1 "1" "web:1", webChild 2 "2" "web:2", webChild 1 "1" "web:0"]
  have hquery : queryOf webRolledOut = .ok "app=web" :=
    Outcome.eq_ok_of_toOption (by decide +kernel)
  have hlisted : (webBoth.reply (.listReplicaSets "default" "app=web")).1 = .ok children := rfl
  have hlast : ∀ r, IsLastListed children 1 r → r = webChild 1 "1" "web:0" := by
    intro r hr
    obtain ⟨hmem, hone⟩ := Revision.isLastListed_iff.mp hr
    obtain rfl | hmem := List.mem_cons.mp hmem
    · rfl
    · obtain rfl := List.mem_singleton.mp hmem
      cases hone
  have hpreview := fun target : Int => @preview_tolerates_repeated_numbers webRolledOut
    ⟨target, true, [], false⟩ _ _ _ _ _ rfl rfl rfl hquery hlisted
  have htwo : 2 ≤ (numbers children).card := by decide
  refine ⟨?_, ?_, ?_⟩
  · obtain ⟨-, -, hprevious, -⟩ := (hpreview previousTarget).2 htwo
    obtain ⟨n, r, ⟨hn, hsecond⟩, hr, hresult⟩ := hprevious rfl
    obtain rfl : n = 1 := by
      have hall : ∀ m ∈ numbers children, ((numbers children).filter (m < ·)).card = 1 → m = 1 := by
        decide
      exact hall n hn hsecond
    obtain rfl := hlast r hr
    exact hresult
  · obtain ⟨-, -, -, hnamed, -⟩ := (hpreview 1).2 htwo
    obtain ⟨r, hr, hresult⟩ := hnamed (by decide) (by decide)
    obtain rfl := hlast r hr
    exact hresult
  · obtain ⟨-, -, -, -, hmissing⟩ := (hpreview 3).2 htwo
    exact hmissing (.inr (by decide))

end Rollback
end Rollout
