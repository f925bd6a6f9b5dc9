import Rollout.Proofs.Revision.Choice

/-!
# Rearranged histories

A choice depends on what is recorded and not on the order in which it is listed. Where no
number repeats there is one way to sort the entries, so that rearranged histories are the
same once they are ordered; where a number repeats, the same number is refused in both,
and the names that are told are sorted (`Revision.tellAlike_ordered`).

Distinct numbers also make it unimportant where an entry stands: it is found in any
arrangement (`Revision.find?_of_perm`).
-/

namespace Rollout

/-- Rearranged texts are the same when they are sorted. -/
theorem sortedTexts_of_perm {ts us : List Text} (h : ts.Perm us) :
    sortedTexts ts = sortedTexts us := by
  have hsorted : ∀ vs : List Text, (sortedTexts vs).Pairwise (fun s t => Text.le s t = true) :=
    @List.pairwise_mergeSort Text Text.le (fun _ _ _ => Text.le_trans) Text.le_total
  have hperm : (sortedTexts ts).Perm (sortedTexts us) :=
    ((List.mergeSort_perm ts Text.le).trans h).trans (List.mergeSort_perm us Text.le).symm
  exact hperm.eq_of_pairwise (fun _ _ _ _ => Text.le_antisymm) (hsorted ts) (hsorted us)

namespace Revision

open Revisioned (revision name)
open Outcome (TellAlike)

variable {α : Type} [Revisioned α] {history history' all : List α}

/-- No number occurs twice. -/
abbrev Distinct (history : List α) : Prop :=
  history.Pairwise (fun a b => revision a ≠ revision b)

/-! ## Sorted histories -/

/-- Rearranged histories are rearranged when they are sorted, too. -/
theorem sorted_perm_sorted (h : history.Perm history') :
    (sorted history).Perm (sorted history') :=
  ((sorted_perm history).trans h).trans (sorted_perm history').symm

/-- The numbers of rearranged histories are the same when they are sorted. -/
theorem map_revision_sorted (h : history.Perm history') :
    (sorted history).map revision = (sorted history').map revision := by
  have hnumbers : ∀ entries : List α, ((sorted entries).map revision).Pairwise (· ≤ ·) :=
    fun entries => List.pairwise_map.mpr (pairwise_sorted entries)
  exact ((sorted_perm_sorted h).map revision).eq_of_pairwise (fun _ _ _ _ => Int.le_antisymm)
    (hnumbers history) (hnumbers history')

/-- Which number repeats first is a matter of the numbers. -/
theorem firstRepeated?_congr {all all' : List α} (h : all.map revision = all'.map revision) :
    firstRepeated? all = firstRepeated? all' := by
  induction all generalizing all' with
  | nil => rw [List.map_eq_nil_iff.mp h.symm]
  | cons a rest ih =>
    obtain ⟨a', rest', rfl, ha, hrest⟩ := List.map_eq_cons_iff.mp h.symm
    cases rest with
    | nil =>
      rw [List.map_eq_nil_iff.mp hrest]
      rfl
    | cons b tail =>
      obtain ⟨b', tail', rfl, hb, -⟩ := List.map_eq_cons_iff.mp hrest
      rw [firstRepeated?, firstRepeated?, ha, hb, ih hrest.symm]

/-- Where no neighbours share a number, sorted numbers are in strict order. -/
theorem pairwise_of_firstRepeated?_eq_none
    (hsorted : all.Pairwise (fun a b => revision a ≤ revision b))
    (h : firstRepeated? all = none) : all.Pairwise (fun a b => revision a < revision b) := by
  induction all with
  | nil => exact .nil
  | cons a rest ih =>
    obtain ⟨ha, hrest⟩ := List.pairwise_cons.mp hsorted
    cases rest with
    | nil => exact List.pairwise_singleton _ a
    | cons b tail =>
      rw [firstRepeated?] at h
      split at h
      · cases h
      · rename_i hne
        have hstrict := ih hrest h
        have hab : revision a < revision b :=
          Int.lt_iff_le_and_ne.mpr ⟨ha b List.mem_cons_self, hne⟩
        refine List.pairwise_cons.mpr ⟨List.forall_mem_cons.mpr ⟨hab, fun c hc => ?_⟩, hstrict⟩
        exact Int.lt_trans hab ((List.pairwise_cons.mp hstrict).1 c hc)

/-- **Entries in strict order are arranged in one way.** -/
theorem sorted_eq_of_perm (h : history.Perm history')
    (hstrict : (sorted history).Pairwise (fun a b => revision a < revision b)) :
    sorted history = sorted history' := by
  have hstrict' : (sorted history').Pairwise (fun a b => revision a < revision b) := by
    rw [← List.pairwise_map (R := (· < ·)), ← map_revision_sorted h]
    exact List.pairwise_map.mpr hstrict
  exact (sorted_perm_sorted h).eq_of_pairwise
    (fun _ _ _ _ hab hba => absurd hab (Int.lt_asymm hba)) hstrict hstrict'

/-- **Rearranged histories are ordered alike.** -/
theorem tellAlike_ordered (h : history.Perm history') :
    TellAlike Eq (ordered history) (ordered history') := by
  simp only [ordered]
  rw [← firstRepeated?_congr (map_revision_sorted h)]
  cases hrepeated : firstRepeated? (sorted history) with
  | none =>
    have hstrict := pairwise_of_firstRepeated?_eq_none (pairwise_sorted history) hrepeated
    exact .ok (sorted_eq_of_perm h hstrict)
  | some n =>
    have hnames := ((sorted_perm_sorted h).filter (fun a => revision a = n)).map name
    refine .error ?_
    simp only [Failure.told, RolloutError.message, RolloutError.typeName, RolloutError.status,
      sortedTexts_of_perm hnames]

/-- **From rearranged histories the same is chosen.** -/
theorem tellAlike_select (h : history.Perm history') (target : Int) :
    TellAlike Eq (select history target) (select history' target) := by
  unfold select previous
  split
  · exact .error rfl
  · split
    · exact (tellAlike_ordered h).bind fun all _ heq => heq ▸ Outcome.tellAlike_refl _
    · exact (tellAlike_ordered h).bind fun all _ heq => heq ▸ Outcome.tellAlike_refl _

/-! ## Distinct numbers -/

/-- **What is found under a number** where none repeats. -/
theorem find?_eq_some_iff_of_distinct (h : Distinct history) {n : Int} {a : α} :
    history.find? (fun b => revision b = n) = some a ↔ a ∈ history ∧ revision a = n := by
  refine ⟨fun hfind => ⟨List.mem_of_find?_eq_some hfind,
    of_decide_eq_true (List.find?_some (p := fun b => decide (revision b = n)) hfind)⟩, ?_⟩
  rintro ⟨hmem, rfl⟩
  induction history with
  | nil => cases hmem
  | cons b rest ih =>
    obtain ⟨hb, hrest⟩ := List.pairwise_cons.mp h
    obtain rfl | hmem := List.mem_cons.mp hmem
    · exact List.find?_cons_of_pos (decide_eq_true rfl)
    · rw [List.find?_cons_of_neg (by simpa using hb a hmem)]
      exact ih hrest hmem

/-- Where none repeats, it does not matter where an entry stands. -/
theorem find?_of_perm (h : history.Perm history') (hdistinct : Distinct history) (n : Int) :
    history.find? (fun a => revision a = n) = history'.find? (fun a => revision a = n) := by
  have hdistinct' : Distinct history' := h.pairwise hdistinct fun hab => hab.symm
  ext a
  rw [find?_eq_some_iff_of_distinct hdistinct, find?_eq_some_iff_of_distinct hdistinct',
    h.mem_iff]

end Revision
end Rollout
