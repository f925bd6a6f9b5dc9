import Rollout.Proofs.Json.Sameness
import Rollout.Proofs.Patch.Everywhere

/-!
# Merged documents are well-formed

Names stay distinct and numbers stay canonical when a document loses its directives
(`Json.wellFormed_stripped`) and when a patch is merged into another
(`Patch.wellFormed_merged`), so that what comes of a merge can be compared with
anything else.
-/

namespace Rollout

namespace Json

theorem strippedItems_eq (items : List Json) :
    strippedItems items = (items.filter (fun x => !Patch.isBareMode x)).map stripped := by
  induction items with
  | nil => rfl
  | cons x xs ih =>
    rw [strippedItems, List.filter_cons, ih]
    cases Patch.isBareMode x <;> rfl

theorem strippedFields_eq (fs : Fields Json) :
    strippedFields fs = (Patch.dataFields fs).map (fun f => (f.1, f.2.stripped)) := by
  induction fs with
  | nil => rfl
  | cons f fs ih =>
    obtain ⟨k, v⟩ := f
    rw [strippedFields, Patch.dataFields, List.filter_cons, ih]
    cases Patch.isDirective k <;> rfl

/-- **A well-formed document stays well-formed without its directives.** -/
theorem wellFormed_stripped {v : Json} (h : WellFormed v) : WellFormed v.stripped := by
  induction v using Json.induction with
  | arr items ih =>
    have hs := wellFormed_arr_iff.mp h
    rw [stripped, strippedItems_eq, wellFormed_arr_iff]
    intro y hy
    obtain ⟨x, hx, rfl⟩ := List.mem_map.mp hy
    have hmem := List.mem_of_mem_filter hx
    exact ih x hmem (hs x hmem)
  | obj fs ih =>
    obtain ⟨hd, hs⟩ := wellFormed_obj_iff.mp h
    rw [stripped, strippedFields_eq, wellFormed_obj_iff]
    constructor
    · rw [Fields.Distinct, Fields.names, List.map_map]
      exact hd.filter (fun f => !Patch.isDirective f.1)
    · intro g hg
      obtain ⟨f, hf, rfl⟩ := List.mem_map.mp hg
      have hmem := List.mem_of_mem_filter hf
      exact ih f hmem (hs f hmem)
  | _ => exact h

end Json

namespace Patch

open Json (WellFormed isWellFormedPart wellFormed_arr_iff wellFormed_obj_iff)

theorem isKept_isWellFormedPart : IsKept isWellFormedPart where
  arr _ := rfl
  nil := rfl
  set fs k v _ h := by
    have hd : Fields.Distinct fs := of_decide_eq_true h
    exact decide_eq_true (hd.set k v)
  filter fs t h := by
    have hd : Fields.Distinct fs := of_decide_eq_true h
    exact decide_eq_true (hd.filter t)

/-- A well-formed patch feeds well-formed pieces. -/
theorem isFeed_of_wellFormed {v : Json} (h : WellFormed v) :
    Json.everywhere (isFeed isWellFormedPart) v = true := by
  have hpart : ∀ {v}, WellFormed v → isFeed isWellFormedPart v = true := by
    intro v hv
    refine Bool.and_eq_true_iff.mpr ⟨Json.wellFormed_stripped hv, ?_⟩
    split
    · rename_i fs
      refine List.all_eq_true.mpr fun f hf => ?_
      split
      · rename_i items heq
        have hitems := (wellFormed_obj_iff.mp hv).2 f hf
        rw [heq] at hitems
        rw [Bool.or_eq_true, List.all_eq_true]
        exact .inr (wellFormed_arr_iff.mp hitems)
      · rfl
    · rfl
  induction v using Json.induction with
  | arr items ih =>
    have hs := wellFormed_arr_iff.mp h
    exact Json.everywhere_arr_iff.mpr ⟨hpart h, fun x hx => ih x hx (hs x hx)⟩
  | obj fs ih =>
    have hs := (wellFormed_obj_iff.mp h).2
    exact Json.everywhere_obj_iff.mpr ⟨hpart h, fun f hf => ih f hf (hs f hf)⟩
  | _ => exact hpart h

/-- **A well-formed map under a well-formed patch is well-formed.** -/
theorem wellFormed_merged {path : Text} {base patch result : Fields Json}
    (hpatch : WellFormed (.obj patch)) (hbase : WellFormed (.obj base))
    (h : merged path base patch = .ok (some result)) : WellFormed (.obj result) :=
  everywhere_merged isKept_isWellFormedPart (isFeed_of_wellFormed hpatch) hbase h

/-- A list that a patch's element was put into holds well-formed elements. -/
theorem wellFormed_of_intoList {path key : Text} {items items' : List Json}
    {element : Fields Json} (he : WellFormed (.obj element)) (hitems : ∀ x ∈ items, WellFormed x)
    (h : intoList path key items element (fun place base => merged place base element)
      = .ok items') : ∀ x ∈ items', WellFormed x := by
  intro x hx
  rcases mem_of_intoList h hx with hx | ⟨place, base, fs, hbase, hmerged, rfl⟩
  · exact hitems x hx
  · refine wellFormed_merged he ?_ hmerged
    rcases hbase with rfl | hbase
    · rfl
    · exact hitems _ hbase

end Patch
end Rollout
