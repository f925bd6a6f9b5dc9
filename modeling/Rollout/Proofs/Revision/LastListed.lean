import Mathlib.Data.Finset.Card
import Rollout.Proofs.Revision.Selection

/-!
# The last entry of each number

Where numbers may repeat, the entry that is taken for a number is the one that is listed last
(`Revision.isLastListed_iff`), and as many entries are taken as there are numbers
(`Revision.length_byNumber`). A choice among those that are taken is then a choice among the
numbers: the second highest of them, or one that is named.
-/

namespace Rollout
namespace Revision

open Revisioned (revision)

variable {α : Type} [Revisioned α] {children all : List α} {a : α} {n target : Int}

/-- The numbers of entries, each of them once. -/
def numbers (children : List α) : Finset Int :=
  (children.map revision).toFinset

/-- **The last entry that is listed with a number.** -/
def IsLastListed (children : List α) (n : Int) (a : α) : Prop :=
  ∃ before behind, children = before ++ a :: behind ∧ revision a = n
    ∧ ∀ b ∈ behind, revision b ≠ n

/-- **The second highest of some numbers.** -/
def IsSecondHighest (ns : Finset Int) (n : Int) : Prop :=
  n ∈ ns ∧ (ns.filter (n < ·)).card = 1

theorem mem_numbers : n ∈ numbers children ↔ ∃ a ∈ children, revision a = n := by
  rw [numbers, List.mem_toFinset, List.mem_map]

/-! ## Entries and numbers -/

/-- **The last entry that is listed with a number** is the one that is taken. -/
theorem isLastListed_iff : IsLastListed children n a ↔ a ∈ byNumber children ∧ revision a = n := by
  rw [← find?_eq_some_iff_of_distinct (distinct_byNumber children), find?_byNumber,
    List.find?_eq_some_iff_append, decide_eq_true_eq, and_comm]
  constructor
  · rintro ⟨before, behind, rfl, ha, hbehind⟩
    refine ⟨⟨behind.reverse, before.reverse, by simp, fun b hb => ?_⟩, ha⟩
    rw [decide_eq_false (hbehind b (List.mem_reverse.mp hb)), Bool.not_false]
  · rintro ⟨⟨behind, before, heq, hbehind⟩, ha⟩
    refine ⟨before.reverse, behind.reverse, ?_, ha, fun b hb heq => ?_⟩
    · rw [← List.reverse_reverse children, heq]
      simp
    · have hne := hbehind b (List.mem_reverse.mp hb)
      rw [decide_eq_true heq] at hne
      cases hne

theorem IsLastListed.mem (h : IsLastListed children n a) : a ∈ children := by
  obtain ⟨before, behind, rfl, -, -⟩ := h
  exact List.mem_append_right _ List.mem_cons_self

/-- **Each number is taken.** -/
theorem numbers_byNumber (children : List α) : numbers (byNumber children) = numbers children := by
  ext n
  rw [mem_numbers, mem_numbers]
  constructor
  · rintro ⟨a, ha, rfl⟩
    exact ⟨a, (isLastListed_iff.mpr ⟨ha, rfl⟩).mem, rfl⟩
  · rintro ⟨a, ha, rfl⟩
    exact exists_mem_byNumber ha

/-- Where none repeats, there are as many numbers of a class as entries with such a number. -/
theorem Distinct.card_filter_numbers (h : Distinct all) (p : Int → Prop) [DecidablePred p] :
    ((numbers all).filter p).card = (all.filter fun a => p (revision a)).length := by
  have hnodup : ((all.filter fun a => p (revision a)).map revision).Nodup :=
    List.pairwise_map.mpr (h.filter _)
  have hnumbers : (numbers all).filter p
      = ((all.filter fun a => p (revision a)).map revision).toFinset := by
    ext n
    simp only [Finset.mem_filter, mem_numbers, List.mem_toFinset, List.mem_map, List.mem_filter,
      decide_eq_true_eq]
    constructor
    · rintro ⟨⟨a, ha, rfl⟩, hp⟩
      exact ⟨a, ⟨ha, hp⟩, rfl⟩
    · rintro ⟨a, ⟨ha, hp⟩, rfl⟩
      exact ⟨⟨a, ha, rfl⟩, hp⟩
  rw [hnumbers, List.toFinset_card_of_nodup hnodup, List.length_map]

/-- **As many entries are taken as there are numbers.** -/
theorem length_byNumber (children : List α) :
    (byNumber children).length = (numbers children).card := by
  have hcard := (distinct_byNumber children).card_filter_numbers fun _ => True
  simpa [numbers_byNumber] using hcard.symm

/-! ## Choices among the numbers -/

/-- The second highest of the numbers is that of the entry before the last. -/
theorem isSecondHighest_iff (ha : a ∈ byNumber children) :
    IsSecondHighest (numbers children) (revision a)
      ↔ ((byNumber children).filter fun b => revision a < revision b).length = 1 := by
  rw [IsSecondHighest, ← numbers_byNumber,
    (distinct_byNumber children).card_filter_numbers fun m => revision a < m]
  exact and_iff_right (mem_numbers.mpr ⟨a, ha, rfl⟩)

/-- **Before the last** of two numbers or more is the second highest, and its last entry is
chosen. -/
theorem exists_select_byNumber_previous (h : 2 ≤ (numbers children).card) :
    ∃ n a, IsSecondHighest (numbers children) n ∧ IsLastListed children n a
      ∧ select (byNumber children) previousTarget = .ok a := by
  have hlength : 2 ≤ (byNumber children).length := (length_byNumber children).symm ▸ h
  obtain ⟨a, hselect, ha⟩ :=
    exists_select (distinct_byNumber children) (.inl ⟨rfl, hlength⟩)
  exact ⟨revision a, a, (isSecondHighest_iff ha.mem).mpr (ha.previous rfl),
    isLastListed_iff.mpr ⟨ha.mem, rfl⟩, hselect⟩

/-- **Of a number that is listed** the last entry is chosen. -/
theorem exists_select_byNumber (htarget : 0 < target) (h : target ∈ numbers children) :
    ∃ a, IsLastListed children target a ∧ select (byNumber children) target = .ok a := by
  obtain ⟨a, hselect, ha⟩ := exists_select (distinct_byNumber children)
    (.inr ⟨htarget, mem_numbers.mp ((numbers_byNumber children).symm ▸ h)⟩)
  have hnamed := ha.named (Int.ne_of_gt htarget)
  exact ⟨a, isLastListed_iff.mpr ⟨ha.mem, hnamed⟩, hselect⟩

/-- A number that is not listed is not found. -/
theorem select_byNumber_of_not_mem (htarget : 0 < target) (h : target ∉ numbers children) :
    select (byNumber children) target = Outcome.fail (.revisionNotFound target) := by
  refine select_of_carriers_eq_nil (distinct_byNumber children) htarget ?_
  refine List.filter_eq_nil_iff.mpr fun a ha heq => h ?_
  rw [← numbers_byNumber]
  exact mem_numbers.mpr ⟨a, ha, of_decide_eq_true heq⟩

end Revision
end Rollout
