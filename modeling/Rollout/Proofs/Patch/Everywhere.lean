import Rollout.Proofs.Json.Everywhere
import Rollout.Proofs.Patch.Arrangement

/-!
# What a merge keeps at every depth

A merge makes a document of parts of two: what it finds, it takes over, filters and
puts in order, and what it takes from the patch is a scalar or has lost its
directives – except for the elements of a united list, which come over as they
stand. A property of parts that taking over, filtering and putting does not destroy
(`Patch.IsKept`), and that the pieces taken from the patch have (`Patch.isFeed`),
therefore holds everywhere in what is merged (`Patch.everywhere_merged`).
-/

namespace Rollout
namespace Patch

open Json (everywhere everywhere_arr_iff everywhere_obj_iff everywhere_of_get?)

/-- **A property that a merge keeps**: of every list, and of objects as their fields
are set and filtered. A new name is no directive. -/
structure IsKept (p : Json → Bool) : Prop where
  arr : ∀ items, p (.arr items) = true
  nil : p (.obj []) = true
  set : ∀ (fs : Fields Json) k v, Fields.has fs k = true ∨ isDirective k = false →
    p (.obj fs) = true → p (.obj (Fields.set fs k v)) = true
  filter : ∀ (fs : Fields Json) t, p (.obj fs) = true → p (.obj (fs.filter t)) = true

/-- The pieces that a merge takes from this part of a patch have the property. -/
def isFeed (p : Json → Bool) (v : Json) : Bool :=
  everywhere p v.stripped &&
    match v with
    | .obj fs => fs.all fun f =>
        match f.2 with
        | .arr items => !isUnited f.1 || items.any (hasMode "replace") || items.all (everywhere p)
        | _ => true
    | _ => true

theorem everywhere_stripped_of_isFeed {p : Json → Bool} {v : Json} (h : isFeed p v = true) :
    everywhere p v.stripped = true :=
  (Bool.and_eq_true_iff.mp h).1

/-- The elements of a united list that is not replaced have the property. -/
theorem everywhere_of_isFeed {p : Json → Bool} {fs : Fields Json} (h : isFeed p (.obj fs) = true)
    {k : Text} {items : List Json} (hmem : (k, .arr items) ∈ fs) (hk : isUnited k = true)
    (hr : items.any (hasMode "replace") = false) : ∀ x ∈ items, everywhere p x = true := by
  have hall := List.all_eq_true.mp (Bool.and_eq_true_iff.mp h).2 _ hmem
  simp only [hk, hr, Bool.not_true, Bool.false_or, List.all_eq_true] at hall
  exact hall

variable {p : Json → Bool}

/-! ## Phases -/

/-- **A list at a field with some of its elements**, in some order; what is no list stays. -/
inductive IsSelection : Option Json → Option Json → Prop where
  | same (held : Option Json) : IsSelection held held
  | list {items kept : List Json} (h : ∀ x ∈ kept, x ∈ items) :
      IsSelection (some (.arr items)) (some (.arr kept))

theorem isSelection_of_removedAt {k : Text} {values : Json} {current held : Option Json}
    (h : removedAt k values current = .ok held) : IsSelection current held := by
  unfold removedAt at h
  split at h
  · obtain ⟨kept, hkept, hheld⟩ := Outcome.bind_eq_ok_iff.mp h
    cases hheld
    exact .list (mem_of_withoutListed hkept)
  · cases h
    exact .same _

theorem isSelection_of_orderedAt {path k : Text} {order : Json} {current held : Option Json}
    (h : orderedAt path k order current = .ok held) : IsSelection current held := by
  unfold orderedAt at h
  split at h
  · obtain ⟨sorted, hsorted, hheld⟩ := Outcome.bind_eq_ok_iff.mp h
    cases hheld
    exact .list fun x hx => (perm_of_inOrder hsorted).mem_iff.mp hx
  · cases h
    exact .same _

/-- **What holds of a map under its patch**: what holds of the patch without its directives, and of
what is kept of the map, and stays true as values are put at fields and elements of lists are left
out or moved. -/
theorem merged_invariant {P : Fields Json → Prop} {path : Text} {base patch result : Fields Json}
    (hreplaced : P (Json.strippedFields patch)) (hkept : ∀ names?, P (keptFields names? base))
    (hput : ∀ fs d held, d ∈ patch → isDirective d.1 = false → P fs →
      mergedAt path d.1 d.2 (Fields.get? fs d.1) = .ok held → P (Fields.put fs d.1 held))
    (hselect : ∀ fs k held, P fs → IsSelection (Fields.get? fs k) held → P (Fields.put fs k held))
    (h : merged path base patch = .ok (some result)) : P result := by
  obtain ⟨m, hm⟩ : ∃ m, mode path patch = .ok m := by
    obtain ⟨m, hm, -⟩ := Outcome.bind_eq_ok_iff.mp h
    exact ⟨m, hm⟩
  cases m with
  | replace =>
    rw [merged_of_replace hm base] at h
    cases h
    exact hreplaced
  | delete =>
    rw [merged_of_delete hm base] at h
    cases h
  | merge =>
    obtain ⟨names?, ds, hnames, hds⟩ := exists_directives_of_merged hm h
    rw [merged_eq_phases hm hnames hds] at h
    obtain ⟨data, hdata, h⟩ := Outcome.bind_eq_ok_iff.mp h
    obtain ⟨reduced, hreduced, h⟩ := Outcome.bind_eq_ok_iff.mp h
    obtain ⟨last, hlast, h⟩ := Outcome.bind_eq_ok_iff.mp h
    cases h
    -- the invariant goes through the fields, the removals and the orders
    have h₁ : P data := by
      refine Fields.foldlM_revise_invariant (fun fs d held hd hfs hf => ?_) (hkept names?) hdata
      obtain ⟨hd, hk⟩ := List.mem_filter.mp hd
      exact hput fs d held hd (by simpa using hk) hfs hf
    have h₂ : P reduced :=
      Fields.foldlM_revise_invariant
        (fun fs d held _ hfs hf => hselect fs d.1 held hfs (isSelection_of_removedAt hf)) h₁ hreduced
    exact Fields.foldlM_revise_invariant
      (fun fs d held _ hfs hf => hselect fs d.1 held hfs (isSelection_of_orderedAt hf)) h₂ hlast

/-! ## Lists -/

/-- What stands in a united list was in one of the two. -/
theorem mem_of_mem_united {base patch : List Json} {x : Json} (h : x ∈ united base patch) :
    x ∈ base ∨ x ∈ patch :=
  (List.mem_append.mp h).imp_right List.mem_of_mem_filter

/-- An element that was put into a keyed list is among what was there, or is what the
merge made of it. -/
theorem mem_of_intoList {path key : Text} {items items' : List Json} {element : Fields Json}
    {merge : Text → Fields Json → Outcome (Option (Fields Json))}
    (h : intoList path key items element merge = .ok items') {x : Json} (hx : x ∈ items') :
    x ∈ items ∨ ∃ place base fs, (base = [] ∨ Json.obj base ∈ items)
      ∧ merge place base = .ok (some fs) ∧ x = .obj fs := by
  unfold intoList at h
  split at h
  · cases h
  · rename_i wanted _
    simp only at h
    split at h
    · cases h
      split at hx
      · exact .inl (List.mem_of_mem_eraseIdx hx)
      · exact .inl hx
    · obtain ⟨found, hmerge, h⟩ := Outcome.bind_eq_ok_iff.mp h
      obtain ⟨base, hbase, hmerge⟩ : ∃ base, (base = [] ∨ Json.obj base ∈ items)
          ∧ merge (elementPath path key wanted) base = .ok found := by
        split at hmerge
        · rename_i fs heq
          obtain ⟨i, -, hi⟩ := Option.bind_eq_some_iff.mp heq
          exact ⟨fs, .inr (List.mem_of_getElem? hi), hmerge⟩
        · exact ⟨[], .inl rfl, hmerge⟩
      split at h
      · cases h
        rcases List.mem_or_eq_of_mem_set hx with hx | rfl
        · exact .inl hx
        · exact .inr ⟨_, base, _, hbase, hmerge, rfl⟩
      · cases h
        rcases List.mem_append.mp hx with hx | hx
        · exact .inl hx
        · exact .inr ⟨_, base, _, hbase, hmerge, List.mem_singleton.mp hx⟩
      · cases h
        exact .inl (List.mem_of_mem_eraseIdx hx)
      · cases h
        exact .inl hx

/-- The list at a field has the property in its elements if the field has it. -/
theorem everywhere_of_listAt {path : Text} {current : Option Json} {items : List Json}
    (hc : ∀ v, current = some v → everywhere p v = true) (h : listAt path current = .ok items) :
    ∀ x ∈ items, everywhere p x = true := by
  unfold listAt at h
  split at h <;> cases h
  · exact fun x hx => absurd hx List.not_mem_nil
  · exact fun x hx => absurd hx List.not_mem_nil
  · exact (everywhere_arr_iff.mp (hc _ rfl)).2

/-- The map at a field has the property if the field has it. -/
theorem everywhere_of_mapAt (hnil : p (.obj []) = true) {path : Text} {current : Option Json}
    {fs : Fields Json} (hc : ∀ v, current = some v → everywhere p v = true)
    (h : mapAt path current = .ok fs) : everywhere p (.obj fs) = true := by
  have hnil : everywhere p (.obj []) = true :=
    everywhere_obj_iff.mpr ⟨hnil, fun f hf => absurd hf List.not_mem_nil⟩
  unfold mapAt at h
  split at h <;> cases h
  · exact hnil
  · exact hnil
  · exact hc _ rfl

/-! ## Maps -/

theorem everywhere_put (hp : IsKept p) {fs : Fields Json} {k : Text} {held : Option Json}
    (hfs : everywhere p (.obj fs) = true)
    (hv : ∀ v, held = some v →
      everywhere p v = true ∧ (Fields.has fs k = true ∨ isDirective k = false)) :
    everywhere p (.obj (Fields.put fs k held)) = true := by
  obtain ⟨hpart, hmem⟩ := everywhere_obj_iff.mp hfs
  refine everywhere_obj_iff.mpr ⟨?_, fun f hf => ?_⟩
  · cases held with
    | none => exact hp.filter fs _ hpart
    | some v => exact hp.set fs k v (hv v rfl).2 hpart
  · rcases Fields.mem_put hf with ⟨v, rfl, rfl⟩ | hf
    · exact (hv v rfl).1
    · exact hmem f hf

theorem everywhere_keptFields (hp : IsKept p) {fs : Fields Json} (names? : Option (List Text))
    (h : everywhere p (.obj fs) = true) : everywhere p (.obj (keptFields names? fs)) = true := by
  cases names? with
  | none => exact h
  | some names =>
    obtain ⟨hpart, hmem⟩ := everywhere_obj_iff.mp h
    exact everywhere_obj_iff.mpr
      ⟨hp.filter fs _ hpart, fun f hf => hmem f (List.mem_of_mem_filter hf)⟩

/-- What a removal or an order makes of a field has the property if the field had
it, and there is nothing where there was nothing. -/
theorem everywhere_of_isSelection (hp : IsKept p) {current held : Option Json}
    (h : IsSelection current held) (hc : ∀ v, current = some v → everywhere p v = true) :
    ∀ v, held = some v → everywhere p v = true ∧ current.isSome = true := by
  cases h with
  | same =>
    rintro v rfl
    exact ⟨hc v rfl, rfl⟩
  | @list items kept hmem =>
    rintro v ⟨⟩
    have hitems := (everywhere_arr_iff.mp (hc _ rfl)).2
    exact ⟨everywhere_arr_iff.mpr ⟨hp.arr kept, fun x hx => hitems x (hmem x hx)⟩, rfl⟩

/-- The property holds of what comes of this value as a patch, wherever it holds of
what was there. -/
structure IsFed (p : Json → Bool) (v : Json) : Prop where
  ofObject : ∀ patch, v = .obj patch → ∀ path base result, everywhere p (.obj base) = true →
    merged path base patch = .ok (some result) → everywhere p (.obj result) = true
  ofList : ∀ patch, v = .arr patch → ∀ path key base result, (∀ x ∈ base, everywhere p x = true) →
    mergedElements path key base patch = .ok result → ∀ x ∈ result, everywhere p x = true

/-- What is put at a field has the property. -/
theorem everywhere_of_mergedValue (hp : IsKept p) {path field : Text} {current held : Option Json}
    {v : Json} (hv : IsFed p v) (hfeed : everywhere p v.stripped = true)
    (hunited : ∀ items, v = .arr items → isUnited field = true →
      items.any (hasMode "replace") = false → ∀ x ∈ items, everywhere p x = true)
    (hc : ∀ w, current = some w → everywhere p w = true)
    (h : mergedValue path field current v = .ok held) :
    ∀ w, held = some w → everywhere p w = true := by
  -- a scalar is taken over, and has nothing to be stripped of
  have hscalar : (∀ c, mergedValue path field c v = (do scalarAt path c; return some v)) →
      v.stripped = v → ∀ w, held = some w → everywhere p w = true := by
    intro hm hs
    rw [hm] at h
    obtain ⟨_, -, hheld⟩ := Outcome.bind_eq_ok_iff.mp h
    cases hheld
    rintro w ⟨⟩
    exact hs ▸ hfeed
  cases v with
  | null =>
    rw [mergedValue] at h
    cases h
    exact fun w hw => by cases hw
  | obj patch =>
    rw [mergedValue] at h
    obtain ⟨base, hbase, h⟩ := Outcome.bind_eq_ok_iff.mp h
    obtain ⟨result?, hresult, hheld⟩ := Outcome.bind_eq_ok_iff.mp h
    cases hheld
    intro w hw
    obtain ⟨result, rfl, rfl⟩ := Option.map_eq_some_iff.mp hw
    exact hv.ofObject patch rfl path base result (everywhere_of_mapAt hp.nil hc hbase) hresult
  | arr patch =>
    rw [mergedValue] at h
    obtain ⟨base, hbase, h⟩ := Outcome.bind_eq_ok_iff.mp h
    obtain ⟨result, hresult, hheld⟩ := Outcome.bind_eq_ok_iff.mp h
    cases hheld
    rintro w ⟨⟩
    have hstripped : ∀ x ∈ Json.strippedItems patch, everywhere p x = true :=
      (everywhere_arr_iff.mp hfeed).2
    have hitems := everywhere_of_listAt hc hbase
    refine everywhere_arr_iff.mpr ⟨hp.arr result, ?_⟩
    -- a list is replaced, united with the one that is there, or merged element by element
    unfold listed at hresult
    split at hresult
    · cases hresult
      exact hstripped
    · rename_i hreplace
      split at hresult
      · cases hresult
        split
        · rename_i hu
          intro x hx
          exact (mem_of_mem_united hx).elim (hitems x)
            (hunited patch rfl hu (Bool.not_eq_true _ ▸ hreplace) x)
        · exact hstripped
      · split at hresult
        · exact hv.ofList patch rfl path _ base result hitems hresult
        · cases hresult
  | bool b => exact hscalar (fun _ => rfl) rfl
  | int i => exact hscalar (fun _ => rfl) rfl
  | float x => exact hscalar (fun _ => rfl) rfl
  | str s => exact hscalar (fun _ => rfl) rfl

/-- What the merge of a map's fields keeps, the map under its patch keeps. -/
theorem everywhere_of_merged_fields (hp : IsKept p) {path : Text} {base patch result : Fields Json}
    (hfields : ∀ f ∈ patch, IsFed p f.2) (hfeed : everywhere (isFeed p) (.obj patch) = true)
    (hbase : everywhere p (.obj base) = true)
    (h : merged path base patch = .ok (some result)) : everywhere p (.obj result) = true := by
  obtain ⟨hpart, hmem⟩ := everywhere_obj_iff.mp hfeed
  have hget : ∀ {fs : Fields Json} {k : Text}, everywhere p (.obj fs) = true →
      ∀ v, Fields.get? fs k = some v → everywhere p v = true :=
    fun hfs _ hv => everywhere_of_get? hfs hv
  refine merged_invariant (P := fun fs => everywhere p (.obj fs) = true)
    (everywhere_stripped_of_isFeed hpart) (fun names? => everywhere_keptFields hp names? hbase)
    (fun fs d held hd hk hfs hf => ?_) (fun fs k held hfs hselect => ?_) h
  · refine everywhere_put hp hfs fun v hv => ⟨?_, .inr hk⟩
    refine everywhere_of_mergedValue hp (hfields d hd)
      (everywhere_stripped_of_isFeed (Json.of_everywhere (hmem d hd)))
      (fun items hi hu hr => ?_) (hget hfs) hf v hv
    exact everywhere_of_isFeed hpart (k := d.1) (by rw [← hi]; exact hd) hu hr
  · exact everywhere_put hp hfs fun v hv =>
      (everywhere_of_isSelection hp hselect (hget hfs) v hv).imp_right .inl

/-- What every element of a patch's list keeps, the whole list keeps. -/
theorem everywhere_of_mergedElements {path key : Text} {patch : List Json}
    (helements : ∀ e ∈ patch, IsFed p e) (hp : IsKept p) {base result : List Json}
    (hbase : ∀ x ∈ base, everywhere p x = true)
    (h : mergedElements path key base patch = .ok result) :
    ∀ x ∈ result, everywhere p x = true := by
  induction patch generalizing base with
  | nil =>
    rw [mergedElements] at h
    cases h
    exact hbase
  | cons e patch ih =>
    obtain ⟨he, hes⟩ := List.forall_mem_cons.mp helements
    cases e with
    | obj element =>
      rw [mergedElements] at h
      obtain ⟨items, hitems, h⟩ := Outcome.bind_eq_ok_iff.mp h
      refine ih hes (fun x hx => ?_) h
      rcases mem_of_intoList hitems hx with hx | ⟨place, found, fs, hfound, hm, rfl⟩
      · exact hbase x hx
      · refine he.ofObject element rfl place found fs ?_ hm
        rcases hfound with rfl | hfound
        · exact everywhere_obj_iff.mpr ⟨hp.nil, fun f hf => absurd hf List.not_mem_nil⟩
        · exact hbase _ hfound
    | _ =>
      rw [mergedElements] at h
      · exact ih hes hbase h
      · exact nofun

/-- **What a merge keeps holds everywhere in the result.** -/
theorem isFed (hp : IsKept p) {v : Json} (h : everywhere (isFeed p) v = true) : IsFed p v := by
  induction v using Json.induction with
  | arr items ih =>
    have hs := (everywhere_arr_iff.mp h).2
    refine ⟨nofun, fun patch heq path key base result hbase hm => ?_⟩
    cases heq
    exact everywhere_of_mergedElements (fun e he => ih e he (hs e he)) hp hbase hm
  | obj fs ih =>
    have hs := (everywhere_obj_iff.mp h).2
    refine ⟨fun patch heq path base result hbase hm => ?_, nofun⟩
    cases heq
    exact everywhere_of_merged_fields hp (fun f hf => ih f hf (hs f hf)) h hbase hm
  | _ => exact ⟨nofun, nofun⟩

/-- **A map under a patch that feeds it nothing else keeps the property at every
depth.** -/
theorem everywhere_merged (hp : IsKept p) {path : Text} {base patch result : Fields Json}
    (hpatch : everywhere (isFeed p) (.obj patch) = true)
    (hbase : everywhere p (.obj base) = true)
    (h : merged path base patch = .ok (some result)) : everywhere p (.obj result) = true :=
  (isFed hp hpatch).ofObject patch rfl path base result hbase h

end Patch
end Rollout
