import Rollout.Proofs.Json.Portable
import Rollout.Proofs.Patch.WellFormed

/-!
# How deep a merge nests

What is merged nests no deeper than the two documents it is made of (`Patch.depth_merged_le`): a
value of the patch goes where it stood in the patch, and what it is put into stood there in the
object. This is not a property of parts, since a part may be as deep as there is room for above
it. It goes down through the merge with the depth that is left, one level with each container.
-/

namespace Rollout

namespace Json

theorem depth_arr_le_iff {items : List Json} {n : Nat} :
    (arr items).depth ≤ n + 1 ↔ ∀ x ∈ items, x.depth ≤ n := by
  rw [depth, Nat.add_le_add_iff_right, depthOfItems_le_iff]

theorem depth_obj_le_iff {fs : Fields Json} {n : Nat} :
    (obj fs).depth ≤ n + 1 ↔ ∀ f ∈ fs, f.2.depth ≤ n := by
  rw [depth, Nat.add_le_add_iff_right, depthOfFields_le_iff]

/-- **Taking out directives nests nothing deeper.** -/
theorem depth_stripped_le (j : Json) : j.stripped.depth ≤ j.depth := by
  induction j using Json.induction with
  | arr items ih =>
    refine depth_arr_le_iff.mpr fun y hy => ?_
    rw [strippedItems_eq] at hy
    obtain ⟨x, hx, rfl⟩ := List.mem_map.mp hy
    have hmem := List.mem_of_mem_filter hx
    exact (ih x hmem).trans (depth_arr_le_iff.mp le_rfl x hmem)
  | obj fs ih =>
    refine depth_obj_le_iff.mpr fun g hg => ?_
    rw [strippedFields_eq] at hg
    obtain ⟨f, hf, rfl⟩ := List.mem_map.mp hg
    have hmem := List.mem_of_mem_filter hf
    exact (ih f hmem).trans (depth_obj_le_iff.mp le_rfl f hmem)
  | _ => exact le_rfl

end Json

namespace Patch

open Json (depth_arr_le_iff depth_obj_le_iff depth_stripped_le)

variable {n : Nat}

/-! ## Places -/

/-- The map at a field is as deep as the field, or empty. -/
theorem depth_of_mapAt {path : Text} {current : Option Json} {fs : Fields Json}
    (hc : ∀ w, current = some w → w.depth ≤ n + 1) (h : mapAt path current = .ok fs) :
    ∀ f ∈ fs, f.2.depth ≤ n := by
  unfold mapAt at h
  split at h <;> cases h
  · exact nofun
  · exact nofun
  · exact depth_obj_le_iff.mp (hc _ rfl)

/-- The list at a field is as deep as the field, or empty. -/
theorem depth_of_listAt {path : Text} {current : Option Json} {items : List Json}
    (hc : ∀ w, current = some w → w.depth ≤ n + 1) (h : listAt path current = .ok items) :
    ∀ x ∈ items, x.depth ≤ n := by
  unfold listAt at h
  split at h <;> cases h
  · exact nofun
  · exact nofun
  · exact depth_arr_le_iff.mp (hc _ rfl)

theorem depth_of_get? {fs : Fields Json} (hfs : ∀ f ∈ fs, f.2.depth ≤ n) {k : Text} :
    ∀ w, Fields.get? fs k = some w → w.depth ≤ n :=
  fun _ hw => hfs _ (Fields.mem_of_get? hw)

theorem depth_put {fs : Fields Json} (hfs : ∀ f ∈ fs, f.2.depth ≤ n) {k : Text}
    {held : Option Json} (hv : ∀ w, held = some w → w.depth ≤ n) :
    ∀ f ∈ Fields.put fs k held, f.2.depth ≤ n := by
  intro f hf
  rcases Fields.mem_put hf with ⟨w, hw, rfl⟩ | hf
  · exact hv w hw
  · exact hfs f hf

/-- Some elements of a list nest no deeper than all. -/
theorem depth_of_isSelection {current held : Option Json} (h : IsSelection current held)
    (hc : ∀ w, current = some w → w.depth ≤ n) : ∀ w, held = some w → w.depth ≤ n := by
  cases h with
  | same => exact hc
  | list hmem =>
    rintro w ⟨⟩
    have hitems := hc _ rfl
    obtain ⟨n, rfl⟩ := Nat.exists_eq_add_of_le' (Nat.le_of_add_left_le hitems)
    exact depth_arr_le_iff.mpr fun x hx => depth_arr_le_iff.mp hitems x (hmem x hx)

/-! ## Documents -/

/-- **This value as a patch nests nothing deeper than `n`**, wherever it is merged into what does
not. -/
structure KeepsDepth (n : Nat) (v : Json) : Prop where
  ofObject : ∀ patch, v = .obj patch → ∀ path base result, (Json.obj base).depth ≤ n →
    merged path base patch = .ok (some result) → (Json.obj result).depth ≤ n
  ofList : ∀ patch, v = .arr patch → ∀ path key base result, (Json.arr base).depth ≤ n →
    mergedElements path key base patch = .ok result → (Json.arr result).depth ≤ n

/-- What is put at a field nests no deeper than what was there and what is merged into it. -/
theorem depth_of_mergedValue {path field : Text} {current held : Option Json} {v : Json}
    (hv : KeepsDepth n v) (hdepth : v.depth ≤ n) (hc : ∀ w, current = some w → w.depth ≤ n)
    (h : mergedValue path field current v = .ok held) : ∀ w, held = some w → w.depth ≤ n := by
  -- a scalar is taken over
  have hscalar : (∀ c, mergedValue path field c v = (do scalarAt path c; return some v)) →
      ∀ w, held = some w → w.depth ≤ n := by
    intro hm
    rw [hm] at h
    obtain ⟨_, -, hheld⟩ := Outcome.bind_eq_ok_iff.mp h
    cases hheld
    rintro w ⟨⟩
    exact hdepth
  cases v with
  | null =>
    rw [mergedValue] at h
    cases h
    rintro w ⟨⟩
  | obj patch =>
    obtain ⟨n, rfl⟩ := Nat.exists_eq_add_of_le' (Nat.le_of_add_left_le hdepth)
    rw [mergedValue] at h
    obtain ⟨base, hbase, h⟩ := Outcome.bind_eq_ok_iff.mp h
    obtain ⟨result?, hresult, hheld⟩ := Outcome.bind_eq_ok_iff.mp h
    cases hheld
    intro w hw
    obtain ⟨result, rfl, rfl⟩ := Option.map_eq_some_iff.mp hw
    exact hv.ofObject patch rfl path base result
      (depth_obj_le_iff.mpr (depth_of_mapAt hc hbase)) hresult
  | arr patch =>
    obtain ⟨n, rfl⟩ := Nat.exists_eq_add_of_le' (Nat.le_of_add_left_le hdepth)
    rw [mergedValue] at h
    obtain ⟨base, hbase, h⟩ := Outcome.bind_eq_ok_iff.mp h
    obtain ⟨result, hresult, hheld⟩ := Outcome.bind_eq_ok_iff.mp h
    cases hheld
    rintro w ⟨⟩
    have hitems := depth_of_listAt hc hbase
    have hstripped : (Json.arr (Json.strippedItems patch)).depth ≤ n + 1 :=
      (depth_stripped_le (.arr patch)).trans hdepth
    unfold listed at hresult
    split at hresult
    · cases hresult
      exact hstripped
    · split at hresult
      · cases hresult
        split
        · refine depth_arr_le_iff.mpr fun x hx => ?_
          exact (mem_of_mem_united hx).elim (hitems x) (depth_arr_le_iff.mp hdepth x)
        · exact hstripped
      · split at hresult
        · exact hv.ofList patch rfl path _ base result (depth_arr_le_iff.mpr hitems) hresult
        · cases hresult
  | bool b => exact hscalar fun _ => rfl
  | int i => exact hscalar fun _ => rfl
  | float x => exact hscalar fun _ => rfl
  | str s => exact hscalar fun _ => rfl

/-- A map under its patch nests no deeper if its fields do not. -/
theorem depth_of_merged_fields {path : Text} {base patch result : Fields Json}
    (hfields : ∀ f ∈ patch, KeepsDepth n f.2) (hpatch : (Json.obj patch).depth ≤ n + 1)
    (hbase : (Json.obj base).depth ≤ n + 1) (h : merged path base patch = .ok (some result)) :
    (Json.obj result).depth ≤ n + 1 := by
  have hpatch' := depth_obj_le_iff.mp hpatch
  refine depth_obj_le_iff.mpr (merged_invariant (P := fun fs => ∀ f ∈ fs, f.2.depth ≤ n)
    (depth_obj_le_iff.mp ((depth_stripped_le (.obj patch)).trans hpatch)) (fun names? f hf => ?_)
    (fun fs d held hd _ hfs hf => ?_) (fun fs k held hfs hselect => ?_) h)
  · refine depth_obj_le_iff.mp hbase f ?_
    cases names? with
    | none => exact hf
    | some names => exact List.mem_of_mem_filter hf
  · exact depth_put hfs
      (depth_of_mergedValue (hfields d hd) (hpatch' d hd) (depth_of_get? hfs) hf)
  · exact depth_put hfs (depth_of_isSelection hselect (depth_of_get? hfs))

/-- A list under its patch nests no deeper if its elements do not. -/
theorem depth_of_mergedElements {path key : Text} {patch : List Json}
    (helements : ∀ x ∈ patch, KeepsDepth n x) (hn : ∀ x ∈ patch, x.depth ≤ n)
    {base result : List Json} (hbase : ∀ x ∈ base, x.depth ≤ n)
    (h : mergedElements path key base patch = .ok result) : ∀ x ∈ result, x.depth ≤ n := by
  induction patch generalizing base with
  | nil =>
    rw [mergedElements] at h
    cases h
    exact hbase
  | cons e patch ih =>
    obtain ⟨he, hes⟩ := List.forall_mem_cons.mp helements
    obtain ⟨hdepth, hdepths⟩ := List.forall_mem_cons.mp hn
    cases e with
    | obj element =>
      rw [mergedElements] at h
      obtain ⟨items, hitems, h⟩ := Outcome.bind_eq_ok_iff.mp h
      refine ih hes hdepths (fun x hx => ?_) h
      rcases mem_of_intoList hitems hx with hx | ⟨place, found, fs, hfound, hm, rfl⟩
      · exact hbase x hx
      · refine he.ofObject element rfl place found fs ?_ hm
        rcases hfound with rfl | hfound
        · exact (Nat.le_add_left 1 _).trans hdepth
        · exact hbase _ hfound
    | _ =>
      rw [mergedElements] at h
      · exact ih hes hdepths hbase h
      · rintro _ ⟨⟩

theorem keepsDepth {v : Json} (h : v.depth ≤ n) : KeepsDepth n v := by
  induction v using Json.induction generalizing n with
  | arr items ih =>
    obtain ⟨n, rfl⟩ := Nat.exists_eq_add_of_le' (Nat.le_of_add_left_le h)
    have hs := depth_arr_le_iff.mp h
    refine ⟨nofun, fun patch heq path key base result hbase hm => ?_⟩
    cases heq
    exact depth_arr_le_iff.mpr (depth_of_mergedElements (fun x hx => ih x hx (hs x hx)) hs
      (depth_arr_le_iff.mp hbase) hm)
  | obj fs ih =>
    obtain ⟨n, rfl⟩ := Nat.exists_eq_add_of_le' (Nat.le_of_add_left_le h)
    have hs := depth_obj_le_iff.mp h
    refine ⟨fun patch heq path base result hbase hm => ?_, nofun⟩
    cases heq
    exact depth_of_merged_fields (fun f hf => ih f hf (hs f hf)) h hbase hm
  | _ => exact ⟨nofun, nofun⟩

/-- **A merge nests no deeper** than the deeper of what is merged. -/
theorem depth_merged_le {path : Text} {base patch result : Fields Json}
    (h : merged path base patch = .ok (some result)) :
    (Json.obj result).depth ≤ max (Json.obj base).depth (Json.obj patch).depth :=
  (keepsDepth (le_max_right _ _)).ofObject patch rfl path base result (le_max_left _ _) h

end Patch
end Rollout
