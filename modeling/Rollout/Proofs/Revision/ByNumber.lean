import Mathlib.Data.List.Induction
import Rollout.History.View
import Rollout.Proofs.Revision.Rearrangement

/-!
# One entry for each number

Of entries that share a number the one that is listed last is taken
(`Revision.find?_byNumber`), so that no number repeats among those that are taken
(`Revision.distinct_byNumber`) and every number that is listed is among theirs. Where none
repeats to begin with, all of them are taken (`Revision.byNumber_of_distinct`).

Choosing a number among them is then nothing but finding it (`Revision.select_of_distinct`).
-/

namespace Rollout
namespace Revision

open Revisioned (revision)

variable {α : Type} [Revisioned α] {a : α} {all children : List α}

/-! ## One entry put among others -/

/-- The number of an entry that is put is there afterwards, and all others were there. -/
theorem map_revision_put (a : α) (all : List α) :
    (put a all).map revision = if revision a ∈ all.map revision then all.map revision
      else all.map revision ++ [revision a] := by
  induction all with
  | nil => rfl
  | cons b rest ih =>
    rw [put]
    split
    · rename_i hab
      rw [List.map_cons, List.map_cons, hab, if_pos List.mem_cons_self]
    · rename_i hab
      have hmem : revision a ∈ (b :: rest).map revision ↔ revision a ∈ rest.map revision := by
        rw [List.map_cons, List.mem_cons, or_iff_right (Ne.symm hab)]
      rw [List.map_cons, ih, List.map_cons]
      simp only [← List.map_cons, hmem]
      split <;> rfl

theorem Distinct.put (h : Distinct all) (a : α) : Distinct (put a all) := by
  rw [Distinct, ← List.pairwise_map (R := (· ≠ ·))] at h ⊢
  rw [map_revision_put]
  split
  · exact h
  · rename_i hnew
    refine List.pairwise_append.mpr ⟨h, List.pairwise_singleton _ _, fun n hn k hk => ?_⟩
    rintro rfl
    exact hnew (List.mem_singleton.mp hk ▸ hn)

/-- **What is found after an entry was put**: the entry under its number, and what was there
under every other. -/
theorem find?_put (a : α) (all : List α) (n : Int) :
    (put a all).find? (fun b => revision b = n)
      = if revision a = n then some a else all.find? (fun b => revision b = n) := by
  induction all with
  | nil =>
    rw [put, List.find?_singleton]
    simp only [decide_eq_true_eq]
    rfl
  | cons b rest ih =>
    rw [put]
    split
    · rename_i hab
      rw [List.find?_cons, List.find?_cons, hab]
      by_cases hn : revision a = n <;> simp [hn]
    · rename_i hab
      rw [List.find?_cons, ih, List.find?_cons]
      by_cases hb : revision b = n
      · have ha : revision a ≠ n := fun ha => hab (hb.trans ha.symm)
        simp [hb, ha]
      · simp [hb]

/-- An entry whose number is new is put behind all. -/
theorem put_of_forall_ne (h : ∀ b ∈ all, revision b ≠ revision a) : put a all = all ++ [a] := by
  induction all with
  | nil => rfl
  | cons b rest ih =>
    obtain ⟨hb, hrest⟩ := List.forall_mem_cons.mp h
    rw [put, if_neg hb, ih hrest, List.cons_append]

/-! ## The entries that are taken -/

/-- One more is put among those that are taken. -/
theorem byNumber_concat (children : List α) (a : α) :
    byNumber (children ++ [a]) = put a (byNumber children) := by
  rw [byNumber, List.foldl_append]
  rfl

/-- **No number is taken twice.** -/
theorem distinct_byNumber (children : List α) : Distinct (byNumber children) := by
  induction children using List.reverseRecOn with
  | nil => exact .nil
  | append_singleton rest a ih =>
    rw [byNumber_concat]
    exact ih.put a

/-- **Of entries that share a number the last is taken.** -/
theorem find?_byNumber (children : List α) (n : Int) :
    (byNumber children).find? (fun a => revision a = n)
      = children.reverse.find? (fun a => revision a = n) := by
  induction children using List.reverseRecOn with
  | nil => rfl
  | append_singleton rest a ih =>
    rw [byNumber_concat, find?_put, ih, List.reverse_append, List.reverse_singleton,
      List.singleton_append, List.find?_cons]
    by_cases ha : revision a = n <;> simp [ha]

/-- Every number that is listed is taken. -/
theorem exists_mem_byNumber (h : a ∈ children) :
    ∃ b ∈ byNumber children, revision b = revision a := by
  have hfound : (children.reverse.find? (fun b => revision b = revision a)).isSome :=
    List.find?_isSome.mpr ⟨a, List.mem_reverse.mpr h, decide_eq_true rfl⟩
  obtain ⟨b, hb⟩ := Option.isSome_iff_exists.mp hfound
  rw [← find?_byNumber, find?_eq_some_iff_of_distinct (distinct_byNumber children)] at hb
  exact ⟨b, hb⟩

/-- Two numbers that are listed are two entries that are taken. -/
theorem two_le_length_byNumber {b : α} (ha : a ∈ children) (hb : b ∈ children)
    (hab : revision a ≠ revision b) : 2 ≤ (byNumber children).length := by
  obtain ⟨a', ha', haa⟩ := exists_mem_byNumber ha
  obtain ⟨b', hb', hbb⟩ := exists_mem_byNumber hb
  match hall : byNumber children with
  | [] =>
    rw [hall] at ha'
    cases ha'
  | [c] =>
    rw [hall] at ha' hb'
    rw [List.mem_singleton.mp ha'] at haa
    rw [List.mem_singleton.mp hb'] at hbb
    exact absurd (haa.symm.trans hbb) hab
  | _ :: _ :: rest => exact Nat.le_add_left 2 rest.length

/-- **Where no number repeats, every entry is taken.** -/
theorem byNumber_of_distinct (h : Distinct children) : byNumber children = children := by
  induction children using List.reverseRecOn with
  | nil => rfl
  | append_singleton rest a ih =>
    obtain ⟨hrest, -, hne⟩ := List.pairwise_append.mp h
    rw [byNumber_concat, ih hrest]
    exact put_of_forall_ne fun b hb => hne b hb a (List.mem_singleton_self a)

/-! ## Finding and choosing -/

open History (findRevision)

/-- Where no number repeats, what is found does not depend on the arrangement. -/
theorem findRevision_of_perm {entries entries' : List α} (h : entries.Perm entries')
    (hdistinct : Distinct entries) (n : Int) :
    findRevision entries n = findRevision entries' n := by
  unfold findRevision
  rw [find?_of_perm h hdistinct n]

/-- What is found is the entry of the number. -/
theorem find?_eq_some_of_findRevision {n : Int} (h : findRevision all n = .ok a) :
    all.find? (fun b => revision b = n) = some a := by
  unfold findRevision at h
  split at h
  · cases h
    assumption
  · cases h

/-- **To choose a number is to find it** once the history is ordered. -/
theorem select_of_pos {n : Int} (hn : 0 < n) (history : List α) :
    select history n = ordered history >>= fun all => findRevision all n := by
  have hne : n ≠ previousTarget := Int.ne_of_gt hn
  rw [select, if_neg (Int.not_lt.mpr (Int.le_of_lt hn)), if_neg hne]
  rfl

/-- **Where no number repeats, a choice is what is found.** -/
theorem select_of_distinct {n : Int} (hn : 0 < n) (h : Distinct all) :
    select all n = findRevision all n := by
  rw [select_of_pos hn, ordered_of_distinct h]
  exact (findRevision_of_perm (sorted_perm all).symm h n).symm

end Revision
end Rollout
