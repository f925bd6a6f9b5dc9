import Rollout.Proofs.Outcome
import Rollout.Revision.Choice

/-!
# Chosen revisions

What is chosen is one of the entries (`Revision.mem_of_select`). For the targets that
name nothing it does not matter when the choice is made: none is made in any history.

Where no number repeats, a choice is made whenever there is something to choose
(`Revision.exists_select`), and it is the one that was asked for: the entry of the
number, or the one below the highest (`Revision.IsTarget`). Sorting only brings the
entries into an order in which both are found at a glance.
-/

namespace Rollout
namespace Revision

variable {α : Type} [Revisioned α]

/-- There is no revision before the last where there is at most one. -/
theorem select_previousTarget_of_length_le_one {history : List α} (h : history.length ≤ 1) :
    select history previousTarget = Outcome.fail .insufficientHistory := by
  match history, h with
  | [], _ => rw [select, if_neg (by decide), if_pos rfl, previous, ordered, sorted,
      List.mergeSort_nil]; rfl
  | [a], _ => rw [select, if_neg (by decide), if_pos rfl, previous, ordered, sorted,
      List.mergeSort_singleton]; rfl

theorem select_of_neg {history : List α} {target : Int} (h : target < 0) :
    select history target = Outcome.fail (.revisionNotFound target) :=
  if_pos h

theorem mem_of_ordered {history all : List α}
    (h : ordered history = .ok all) : ∀ a ∈ all, a ∈ history := by
  unfold ordered at h
  simp only at h
  split at h
  · cases h
  · cases h
    exact fun a ha => List.mem_mergeSort.mp ha

/-- **What is chosen is in the history.** -/
theorem mem_of_select {history : List α} {target : Int} {a : α}
    (h : select history target = .ok a) : a ∈ history := by
  unfold select at h
  split at h
  · cases h
  · split at h
    · obtain ⟨all, hall, h⟩ := Outcome.bind_eq_ok_iff.mp h
      split at h
      · rename_i last entry rest heq
        cases h
        refine mem_of_ordered hall _ (List.mem_reverse.mp ?_)
        rw [heq]
        exact List.mem_cons_of_mem _ List.mem_cons_self
      · cases h
    · obtain ⟨all, hall, h⟩ := Outcome.bind_eq_ok_iff.mp h
      split at h
      · rename_i entry hentry
        cases h
        exact mem_of_ordered hall _ (List.mem_of_find?_eq_some hentry)
      · cases h

/-! ## The choice that is asked for -/

open Revisioned (revision)

/-- **The entry a target stands for**: the one of that number, or for `previousTarget` the
one that a single other exceeds. -/
structure IsTarget (history : List α) (target : Int) (a : α) : Prop where
  mem : a ∈ history
  named : target ≠ previousTarget → revision a = target
  previous : target = previousTarget →
    (history.filter (fun b => revision a < revision b)).length = 1

variable {history : List α}

theorem sorted_perm (history : List α) : (sorted history).Perm history :=
  List.mergeSort_perm history _

theorem pairwise_sorted (history : List α) :
    (sorted history).Pairwise (fun a b => revision a ≤ revision b) := by
  have h : (sorted history).Pairwise (fun a b => decide (revision a ≤ revision b) = true) := by
    refine List.pairwise_mergeSort (fun a b c hab hbc => ?_) (fun a b => ?_) history
    · exact decide_eq_true (Int.le_trans (of_decide_eq_true hab) (of_decide_eq_true hbc))
    · rw [Bool.or_eq_true, decide_eq_true_eq, decide_eq_true_eq]
      exact Int.le_total _ _
  exact h.imp of_decide_eq_true

/-- Distinct numbers are in strict order when they are sorted. -/
theorem pairwise_sorted_of_distinct
    (h : history.Pairwise (fun a b => revision a ≠ revision b)) :
    (sorted history).Pairwise (fun a b => revision a < revision b) := by
  have hne := (sorted_perm history).symm.pairwise h fun hab => hab.symm
  exact ((pairwise_sorted history).and hne).imp fun hab => Int.lt_iff_le_and_ne.mpr hab

theorem firstRepeated?_eq_none {all : List α}
    (h : all.Pairwise (fun a b => revision a < revision b)) : firstRepeated? all = none := by
  induction all with
  | nil => rfl
  | cons a rest ih =>
    cases rest with
    | nil => rfl
    | cons b rest =>
      obtain ⟨ha, hrest⟩ := List.pairwise_cons.mp h
      rw [firstRepeated?, if_neg (Int.ne_of_lt (ha b List.mem_cons_self))]
      exact ih hrest

/-- **A history without repeated numbers can be ordered.** -/
theorem ordered_of_distinct (h : history.Pairwise (fun a b => revision a ≠ revision b)) :
    ordered history = .ok (sorted history) := by
  rw [ordered, firstRepeated?_eq_none (pairwise_sorted_of_distinct h)]

/-- **There is an entry before the last** of two or more. -/
theorem exists_previous (h : history.Pairwise (fun a b => revision a ≠ revision b))
    (hlength : 2 ≤ history.length) :
    ∃ a, previous history = .ok a ∧ IsTarget history previousTarget a := by
  have hperm := (List.reverse_perm (sorted history)).trans (sorted_perm history)
  have hdesc := List.pairwise_reverse.mpr (pairwise_sorted_of_distinct h)
  match hrev : (sorted history).reverse with
  | [] =>
    rw [← hperm.length_eq, hrev] at hlength
    cases hlength
  | [_] =>
    rw [← hperm.length_eq, hrev] at hlength
    exact absurd hlength (Nat.lt_irrefl 1)
  | last :: entry :: rest =>
    rw [hrev] at hperm hdesc
    obtain ⟨hlast, hdesc⟩ := List.pairwise_cons.mp hdesc
    obtain ⟨hentry, -⟩ := List.pairwise_cons.mp hdesc
    refine ⟨entry, ?_, hperm.mem_iff.mp (by simp), fun hne => absurd rfl hne, fun _ => ?_⟩
    · rw [previous, ordered_of_distinct h]
      simp only [bind, Except.bind, hrev]
      rfl
    · rw [← (hperm.filter _).length_eq, List.filter_cons,
        if_pos (decide_eq_true (hlast entry List.mem_cons_self)), List.filter_cons,
        if_neg (by simp), List.filter_eq_nil_iff.mpr fun b hb => ?_]
      · rfl
      · rw [decide_eq_true_eq, Int.not_lt]
        exact Int.le_of_lt (hentry b hb)

/-- **A choice is made where there is one**, and it is the one that was asked for. -/
theorem exists_select {target : Int}
    (h : history.Pairwise (fun a b => revision a ≠ revision b))
    (htarget : (target = previousTarget ∧ 2 ≤ history.length)
      ∨ (0 < target ∧ ∃ a ∈ history, revision a = target)) :
    ∃ a, select history target = .ok a ∧ IsTarget history target a := by
  obtain ⟨rfl, hlength⟩ | ⟨hpos, a, ha, rfl⟩ := htarget
  · exact exists_previous h hlength
  · have hne : revision a ≠ previousTarget := Int.ne_of_gt hpos
    have hfound : ((sorted history).find? (fun b => revision b = revision a)).isSome :=
      List.find?_isSome.mpr ⟨a, (sorted_perm history).mem_iff.mpr ha, decide_eq_true rfl⟩
    obtain ⟨b, hb⟩ := Option.isSome_iff_exists.mp hfound
    have hnamed : revision b = revision a :=
      of_decide_eq_true (List.find?_some (p := fun b => decide (revision b = revision a)) hb)
    refine ⟨b, ?_, (sorted_perm history).mem_iff.mp (List.mem_of_find?_eq_some hb),
      fun _ => hnamed, fun heq => absurd heq hne⟩
    rw [select, if_neg (Int.not_lt.mpr (Int.le_of_lt hpos)), if_neg hne, ordered_of_distinct h]
    simp only [bind, Except.bind, hb]
    rfl

end Revision
end Rollout
