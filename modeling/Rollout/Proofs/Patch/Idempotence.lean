import Rollout.Proofs.Patch.Absorption

/-!
# A patch has no effect a second time

To merge a patch into what came of merging it changes nothing
(`Patch.mergedObject_idempotent`), for every object and every patch that tell the
elements of their keyed lists apart and take none out by a removal.

The second merge is another computation than the first: it finds other values, takes
other branches, and could fail where the first did not. So it is followed field by
field (`Patch.fieldAfter_again`): a field that the patch drops or replaces is computed
from nothing both times, a map is known by induction, a united list finds its values
there or removed, and a keyed list has absorbed its elements. The removals and orders
that come last have been carried out already.
-/

namespace Rollout
namespace Patch

open Json (WellFormed Alike everywhere)

/-- **No removal takes elements out of a keyed list**, in one patch's map. -/
def removesNoElements : Json → Bool
  | .obj fs => fs.all fun f =>
      match listOf? removalStem f.1 with
      | some field => (mergeKey? field).isNone
      | none => true
  | _ => true

/-- The maps in this value of a patch have no effect a second time. -/
structure IsRepeatable (v : Json) : Prop where
  ofObject : ∀ patch, v = .obj patch → IsIdempotent patch
  ofList : ∀ items, v = .arr items → ∀ patch, .obj patch ∈ items → IsIdempotent patch

theorem alike_refl {held : Option Json} (h : ∀ v, held = some v → WellFormed v) :
    Alike held held := by
  cases held with
  | none => trivial
  | some v => exact Json.same_refl (h v rfl)

variable {path k : Text} {patch : Fields Json} {current held : Option Json}

/-! ## Lists -/

/-- **What a united list lacks the second time** is what the removal takes out again. -/
theorem isListed_of_united {base items sorted : List Json} (hp : WellFormed (.obj patch))
    (hbase : ∀ x ∈ base, WellFormed x) (hitems : ∀ x ∈ items, WellFormed x)
    (h : IsArranged path patch k (united base items) sorted) :
    ∀ x ∈ items.filter (fun j => !j.isIn sorted),
      isSearched (Fields.get? patch (removalStem ++ k)) x = true
        ∧ isListed (Fields.get? patch (removalStem ++ k)) x = true := by
  intro x hx
  obtain ⟨hmem, hnot⟩ := List.mem_filter.mp hx
  have hsorted : ∀ y ∈ sorted, x.same y = false := by
    intro y hy
    have hany : x.isIn sorted = false := by simpa using hnot
    exact Bool.eq_false_iff.mpr fun hxy =>
      Bool.eq_false_iff.mp hany (List.any_eq_true.mpr ⟨y, hy, hxy⟩)
  -- what was in the united list and is not there now has been taken out
  have hgone : ∀ y ∈ united base items, x.same y = true →
      isListed (Fields.get? patch (removalStem ++ k)) y = true := by
    intro y hy hxy
    by_contra hl
    have hin : y ∈ sorted := h.perm.mem_iff.mpr (List.mem_filter.mpr ⟨hy, by simpa using hl⟩)
    exact Bool.eq_false_iff.mp (hsorted y hin) hxy
  cases hb : x.isIn base with
  | true =>
    obtain ⟨y, hy, hxy⟩ := List.any_eq_true.mp hb
    have hu : y ∈ united base items := List.mem_append_left _ hy
    exact isListed_of_same (fun _ hr => hp.get? hr) (hitems x hmem) (hbase y hy) hxy
      (h.searched y hu) (hgone y hu hxy)
  | false =>
    have hu : x ∈ united base items :=
      List.mem_append_right _ (List.mem_filter.mpr ⟨hmem, by rw [hb]; rfl⟩)
    exact ⟨h.searched x hu, hgone x hu (Json.same_refl (hitems x hmem))⟩

/-- Lists of elements that stand for each other are put in order alike. -/
theorem map_identity_of_forall₂ {key : Text} {xs ys : List Json}
    (h : List.Forall₂ (StandsFor key) xs ys) :
    xs.map (identity (some key)) = ys.map (identity (some key)) := by
  induction h with
  | nil => rfl
  | cons h _ ih => rw [List.map_cons, List.map_cons, h.identity, ih]

/-- Elements that were merged into a list of maps leave a list of maps. -/
theorem isObject_of_mergedElements {path key : Text} {patch base result : List Json}
    (hbase : ∀ x ∈ base, x.isObject = true) (h : mergedElements path key base patch = .ok result) :
    ∀ x ∈ result, x.isObject = true := by
  induction patch generalizing base with
  | nil =>
    rw [mergedElements] at h
    cases h
    exact hbase
  | cons e patch ih =>
    cases e with
    | obj element =>
      rw [mergedElements] at h
      obtain ⟨next, hnext, h⟩ := Outcome.bind_eq_ok_iff.mp h
      refine ih (fun x hx => ?_) h
      rcases mem_of_intoList hnext hx with hx | ⟨_, _, fs, -, -, rfl⟩
      · exact hbase x hx
      · rfl
    | _ =>
      rw [mergedElements] at h
      · exact ih hbase h
      · intro _ hobject
        cases hobject

/-- **What is asked of a list of the patch**, under its field: the maps in it have no
effect a second time, and in a keyed list they carry names that differ. -/
structure IsRepeatableList (k : Text) (items : List Json) : Prop where
  wellFormed : ∀ x ∈ items, WellFormed x
  maps : ∀ patch, Json.obj patch ∈ items → IsIdempotent patch
  named : ∀ key, mergeKey? k = some key → items.any (hasMode "replace") = false →
    items.all (fun x => (keyOf? key x).any isName) = true ∧ keysDiffer key items = true

/-- What is asked of the list that a patch finds. -/
structure IsTellingList (k : Text) (items : List Json) : Prop where
  wellFormed : ∀ x ∈ items, WellFormed x
  unique : ∀ x ∈ items, everywhere hasUniqueKeys x = true
  differ : ∀ key, mergeKey? k = some key → keysDiffer key items = true

/-- A list under its patch, with the elements of keyed lists merged one by one. -/
def listedBy (path k : Text) (base items : List Json) : Outcome (List Json) :=
  listed path k base items (fun key base => mergedElements path key base items)

variable {place : Text} {base items result sorted : List Json}

/-- **A keyed list has absorbed its elements.** -/
theorem listed_again_of_mergeKey {key : Text} (hk : mergeKey? k = some key)
    (hremoval : Fields.get? patch (removalStem ++ k) = none)
    (hitems : IsRepeatableList k items) (hbase : IsTellingList k base)
    (hr : items.any (hasMode "replace") = false) (h : listedBy path k base items = .ok result)
    (ha : IsArranged place patch k result sorted) (hsorted : ∀ x ∈ sorted, WellFormed x) :
    ∃ again, listedBy path k sorted items = .ok again
      ∧ arranged place patch k (some (.arr again)) = .ok (some (.arr again))
      ∧ Json.same (.arr again) (.arr sorted) = true := by
  have hr' := Bool.eq_false_iff.mp hr
  rw [listedBy, listed, if_neg hr', hk] at h
  simp only at h
  split at h
  · rename_i hall
    rw [List.all_append, Bool.and_eq_true, List.all_eq_true, List.all_eq_true] at hall
    obtain ⟨hnames, hkeys⟩ := hitems.named key hk hr
    have hperm := ha.perm
    rw [hremoval, filter_isListed_none] at hperm
    obtain ⟨again, hagain, hstands⟩ := mergedElements_again
      (isElements_of_all hitems.wellFormed hr hnames hkeys) (isDirective_mergeKey hk) hitems.maps
      hbase.wellFormed hbase.unique (hbase.differ key hk) h hperm hsorted
    have hobjects : (sorted ++ items).all Json.isObject = true := by
      rw [List.all_append, Bool.and_eq_true, List.all_eq_true, List.all_eq_true]
      refine ⟨fun x hx => ?_, hall.2⟩
      exact isObject_of_mergedElements hall.1 h x (hperm.mem_iff.mp hx)
    refine ⟨again, ?_, ?_, ?_⟩
    · rw [listedBy, listed, if_neg hr', hk]
      simp only [if_pos hobjects]
      exact hagain
    · have hrest := ha.again again [] (hk ▸ map_identity_of_forall₂ hstands)
        (fun _ _ => by rw [hremoval]; exact ⟨rfl, rfl⟩) (fun j hj => absurd hj List.not_mem_nil)
      rwa [List.append_nil] at hrest
    · rw [Json.same, Json.sameItems_iff]
      exact hstands.imp fun _ _ hxy => hxy.same
  · cases h

/-- **A list under its patch is the same list the second time.** -/
theorem listed_again (hp : WellFormed (.obj patch))
    (hremoval : ∀ key, mergeKey? k = some key → Fields.get? patch (removalStem ++ k) = none)
    (hitems : IsRepeatableList k items) (hbase : IsTellingList k base)
    (h : listedBy path k base items = .ok result) (ha : IsArranged place patch k result sorted)
    (hresult : arranged place patch k (some (.arr result)) = .ok (some (.arr sorted)))
    (hsorted : ∀ x ∈ sorted, WellFormed x) :
    ∃ next again, listedBy path k sorted items = .ok next
      ∧ arranged place patch k (some (.arr next)) = .ok (some (.arr again))
      ∧ Json.same (.arr again) (.arr sorted) = true := by
  have hsame : Json.same (.arr sorted) (.arr sorted) = true :=
    Json.same_refl (Json.wellFormed_arr_iff.mpr hsorted)
  cases hr : items.any (hasMode "replace") with
  | true =>
    rw [listedBy, listed, if_pos hr] at h
    refine ⟨result, sorted, ?_, hresult, hsame⟩
    rw [listedBy, listed, if_pos hr]
    exact h
  | false =>
    cases hk : mergeKey? k with
    | some key =>
      obtain ⟨again, hagain⟩ :=
        listed_again_of_mergeKey hk (hremoval key hk) hitems hbase hr h ha hsorted
      exact ⟨again, again, hagain⟩
    | none =>
      have hr' := Bool.eq_false_iff.mp hr
      rw [listedBy, listed, if_neg hr', hk] at h
      obtain rfl := Except.ok.inj h
      by_cases hu : isUnited k = true
      · refine ⟨united sorted items, sorted, ?_, ?_, hsame⟩
        · rw [listedBy, listed, if_neg hr', hk, if_pos hu]
        · rw [if_pos hu] at ha
          exact ha.again sorted _ rfl ha.kept
            (isListed_of_united hp hbase.wellFormed hitems.wellFormed ha)
      · refine ⟨_, sorted, ?_, hresult, hsame⟩
        rw [listedBy, listed, if_neg hr', hk, if_neg hu, if_neg hu]

/-! ## One field -/

/-- What is asked of a patch's value, under its field. -/
structure IsRepeatableValue (k : Text) (v : Json) : Prop where
  ofObject : ∀ patch, v = .obj patch → IsIdempotent patch
  ofList : ∀ items, v = .arr items → IsRepeatableList k items

/-- What is asked of what a field holds. -/
structure IsTelling (k : Text) (current : Option Json) : Prop where
  wellFormed : ∀ v, current = some v → WellFormed v
  unique : ∀ v, current = some v → everywhere hasUniqueKeys v = true
  differ : ∀ items, current = some (.arr items) → ∀ key, mergeKey? k = some key →
    keysDiffer key items = true

theorem isTelling_get? {fs : Fields Json} (hfs : WellFormed (.obj fs))
    (hunique : everywhere hasUniqueKeys (.obj fs) = true) (k : Text) :
    IsTelling k (Fields.get? fs k) where
  wellFormed _ hv := hfs.get? hv
  unique _ hv := Json.everywhere_of_get? hunique hv
  differ items hv key hk := by
    have hfield := List.all_eq_true.mp (Json.of_everywhere hunique) _ (Fields.mem_of_get? hv)
    simp only [hk] at hfield
    exact hfield

theorem IsTelling.listAt (h : IsTelling k current) (hbase : listAt path current = .ok base) :
    IsTellingList k base where
  wellFormed := everywhere_of_listAt h.wellFormed hbase
  unique := everywhere_of_listAt h.unique hbase
  differ key hk := by
    unfold Patch.listAt at hbase
    split at hbase
    · cases hbase; rfl
    · cases hbase; rfl
    · cases hbase
      exact h.differ _ rfl key hk
    · cases hbase

/-- A list of the patch has no effect a second time. -/
theorem mergedValue_arr_again (hp : WellFormed (.obj patch))
    (hremoval : ∀ key, mergeKey? k = some key → Fields.get? patch (removalStem ++ k) = none)
    (hitems : IsRepeatableList k items) (hc : IsTelling k current)
    (hheld : ∀ v, held = some v → WellFormed v)
    (h : (mergedValue path k current (.arr items) >>= arranged place patch k) = .ok held) :
    ∃ again, (mergedValue path k held (.arr items) >>= arranged place patch k) = .ok again
      ∧ Alike again held := by
  rw [mergedValue] at h
  obtain ⟨_, hm, harr⟩ := Outcome.bind_eq_ok_iff.mp h
  obtain ⟨base, hbase, hm⟩ := Outcome.bind_eq_ok_iff.mp hm
  obtain ⟨result, hresult, hm⟩ := Outcome.bind_eq_ok_iff.mp hm
  obtain rfl := Except.ok.inj hm
  obtain ⟨sorted, rfl, ha⟩ := exists_isArranged harr
  obtain ⟨next, again, hnext, hagain, hsame⟩ := listed_again hp hremoval hitems
    (hc.listAt hbase) hresult ha harr (Json.wellFormed_arr_iff.mp (hheld _ rfl))
  refine ⟨some (.arr again), ?_, hsame⟩
  rw [mergedValue]
  exact Outcome.bind_eq_ok_iff.mpr ⟨some (.arr next), Outcome.bind_eq_ok_iff.mpr
    ⟨sorted, rfl, Outcome.bind_eq_ok_iff.mpr ⟨next, hnext, rfl⟩⟩, hagain⟩

/-- A map of the patch has no effect a second time. -/
theorem mergedValue_obj_again {map : Fields Json} (hmap : IsIdempotent map)
    (hc : IsTelling k current)
    (h : (mergedValue path k current (.obj map) >>= arranged place patch k) = .ok held) :
    ∃ again, (mergedValue path k held (.obj map) >>= arranged place patch k) = .ok again
      ∧ Alike again held := by
  rw [mergedValue] at h
  obtain ⟨_, hm, harr⟩ := Outcome.bind_eq_ok_iff.mp h
  obtain ⟨base, hbase, hm⟩ := Outcome.bind_eq_ok_iff.mp hm
  obtain ⟨result?, hresult, hm⟩ := Outcome.bind_eq_ok_iff.mp hm
  obtain rfl := Except.ok.inj hm
  have hne : ∀ (r? : Option (Fields Json)) items, r?.map Json.obj ≠ some (.arr items) := by
    rintro (_ | r) items ⟨⟩
  rw [arranged_of_not_arr (hne result?)] at harr
  obtain rfl := Except.ok.inj harr
  obtain ⟨again?, hagain, halike⟩ := hmap path base result?
    (everywhere_of_mapAt rfl hc.wellFormed hbase) (everywhere_of_mapAt rfl hc.unique hbase) hresult
  refine ⟨again?.map .obj, ?_, halike⟩
  have hat : mapAt path (result?.map .obj) = .ok (result?.getD []) := by cases result? <;> rfl
  rw [mergedValue]
  exact Outcome.bind_eq_ok_iff.mpr ⟨again?.map .obj, Outcome.bind_eq_ok_iff.mpr
    ⟨result?.getD [], hat, Outcome.bind_eq_ok_iff.mpr ⟨again?, hagain, rfl⟩⟩,
    arranged_of_not_arr (hne again?)⟩

/-- **A value of the patch has no effect a second time.** -/
theorem mergedValue_again {v : Json} (hp : WellFormed (.obj patch))
    (hremoval : ∀ key, mergeKey? k = some key → Fields.get? patch (removalStem ++ k) = none)
    (hv : IsRepeatableValue k v) (hc : IsTelling k current)
    (hheld : ∀ v, held = some v → WellFormed v)
    (h : (mergedValue path k current v >>= arranged place patch k) = .ok held) :
    ∃ again, (mergedValue path k held v >>= arranged place patch k) = .ok again
      ∧ Alike again held := by
  have hscalar : (∀ c, mergedValue path k c v = (do scalarAt path c; return some v)) →
      scalarAt path (some v) = .ok () → (∀ items, some v ≠ some (.arr items)) →
      ∃ again, (mergedValue path k held v >>= arranged place patch k) = .ok again
        ∧ Alike again held := by
    intro hm hover hne
    rw [hm] at h
    obtain ⟨_, hcurrent, harr⟩ := Outcome.bind_eq_ok_iff.mp h
    obtain ⟨_, -, hcurrent⟩ := Outcome.bind_eq_ok_iff.mp hcurrent
    obtain rfl := Except.ok.inj hcurrent
    rw [arranged_of_not_arr hne] at harr
    obtain rfl := Except.ok.inj harr
    refine ⟨some v, ?_, alike_refl hheld⟩
    rw [hm]
    exact Outcome.bind_eq_ok_iff.mpr ⟨some v, Outcome.bind_eq_ok_iff.mpr ⟨(), hover, rfl⟩,
      arranged_of_not_arr hne⟩
  cases v with
  | null => exact ⟨held, h, alike_refl hheld⟩
  | obj map => exact mergedValue_obj_again (hv.ofObject map rfl) hc h
  | arr items => exact mergedValue_arr_again hp hremoval (hv.ofList items rfl) hc hheld h
  | bool b => exact hscalar (fun _ => rfl) rfl nofun
  | int i => exact hscalar (fun _ => rfl) rfl nofun
  | float x => exact hscalar (fun _ => rfl) rfl nofun
  | str s => exact hscalar (fun _ => rfl) rfl nofun

/-- **A field of a map under its patch is the same the second time.** -/
theorem fieldAfter_again {names? : Option (List Text)} (hp : WellFormed (.obj patch))
    (hremoval : ∀ key, mergeKey? k = some key → Fields.get? patch (removalStem ++ k) = none)
    (hv : ∀ v, Fields.get? patch k = some v → IsRepeatableValue k v) (hc : IsTelling k current)
    (hheld : ∀ v, held = some v → WellFormed v)
    (h : fieldAfter path patch names? k current = .ok held) :
    ∃ again, fieldAfter path patch names? k held = .ok again ∧ Alike again held := by
  have hkept : (∀ c, keptAt names? k c = c) ∨ ∀ c, keptAt names? k c = none := by
    cases names? with
    | none => exact .inl fun _ => rfl
    | some names =>
      cases hk : names.contains k with
      | true => exact .inl fun c => if_pos hk
      | false => exact .inr fun c => if_neg (Bool.eq_false_iff.mp hk)
  rw [fieldAfter_eq] at h ⊢
  rcases hkept with hkept | hkept
  · rw [hkept] at h ⊢
    unfold Fields.revised at h ⊢
    cases hd : Fields.get? (dataFields patch) k with
    | none =>
      rw [hd] at h
      exact ⟨held, arranged_arranged h, alike_refl hheld⟩
    | some v =>
      rw [hd] at h
      have hmem := List.mem_of_mem_filter (Fields.mem_of_get? hd)
      have hget := (Fields.get?_eq_some_iff (Json.wellFormed_obj_iff.mp hp).1).mpr hmem
      exact mergedValue_again hp hremoval (hv v hget) hc hheld h
  · -- what is not kept is computed from nothing both times
    rw [hkept] at h ⊢
    exact ⟨held, h, alike_refl hheld⟩

/-! ## A whole map -/

/-- The parts of a patch that name the elements of keyed lists, and remove none. -/
theorem isRepeatableValue {v : Json} (hp : WellFormed (.obj patch))
    (hnamed : hasNamedElements (.obj patch) = true) (hrep : IsRepeatable v)
    (hv : Fields.get? patch k = some v) : IsRepeatableValue k v where
  ofObject := hrep.ofObject
  ofList items hitems :=
    { wellFormed := Json.wellFormed_arr_iff.mp (hitems ▸ hp.get? hv)
      maps := hrep.ofList items hitems
      named := fun key hk hr => by
        have hfield := List.all_eq_true.mp hnamed _ (Fields.mem_of_get? hv)
        simp only [hk, hitems, hr, Bool.false_or, Bool.and_eq_true] at hfield
        exact hfield }

/-- A removal of a keyed list's elements is not among the patch's fields. -/
theorem get?_removal_eq_none (hremovals : removesNoElements (.obj patch) = true) {key : Text}
    (hk : mergeKey? k = some key) : Fields.get? patch (removalStem ++ k) = none := by
  by_contra hne
  obtain ⟨v, hv⟩ := Option.ne_none_iff_exists'.mp hne
  have hfield := List.all_eq_true.mp hremovals _ (Fields.mem_of_get? hv)
  simp only [listOf?_eq_some_iff.mpr rfl, hk] at hfield
  cases hfield

/-- **A map of the patch has no effect a second time** if its parts have none. -/
theorem isIdempotent_of_fields (hp : WellFormed (.obj patch))
    (hnamed : hasNamedElements (.obj patch) = true)
    (hremovals : removesNoElements (.obj patch) = true)
    (hfields : ∀ f ∈ patch, IsRepeatable f.2) : IsIdempotent patch := by
  intro path base result? hbase hunique h
  obtain ⟨m, hmode, -⟩ := Outcome.bind_eq_ok_iff.mp h
  cases m with
  | replace =>
    rw [merged_of_replace hmode] at h ⊢
    obtain rfl := Except.ok.inj h
    exact ⟨_, rfl, Json.same_refl (Json.wellFormed_stripped hp)⟩
  | delete =>
    rw [merged_of_delete hmode] at h ⊢
    obtain rfl := Except.ok.inj h
    exact ⟨none, rfl, trivial⟩
  | merge =>
    obtain ⟨hd, -⟩ := Json.wellFormed_obj_iff.mp hp
    obtain ⟨names?, ds, result, hnames, hds, rfl, hdistinct, hafter⟩ :=
      fieldAfter_of_merged hd hmode h
    have hresult := wellFormed_merged hp hbase h
    -- the second run succeeds field by field, and so as a whole
    have hagain : ∀ k, ∃ held, fieldAfter path patch names? k (Fields.get? result k) = .ok held
        ∧ Alike held (Fields.get? result k) := fun k =>
      fieldAfter_again hp (fun _ hk => get?_removal_eq_none hremovals hk)
        (fun v hv => isRepeatableValue hp hnamed (hfields _ (Fields.mem_of_get? hv)) hv)
        (isTelling_get? hbase hunique k) (fun _ hv => hresult.get? hv) (hafter k)
    obtain ⟨again, hmerged⟩ := exists_merged_of_fieldAfter hd hmode hnames hds
      fun k => (hagain k).imp fun _ hk => hk.1
    refine ⟨some again, hmerged, ?_⟩
    obtain ⟨names?', _, _, hnames', -, heq, hdistinct', hafter'⟩ :=
      fieldAfter_of_merged hd hmode hmerged
    obtain rfl := Option.some.inj heq
    obtain rfl := Except.ok.inj (hnames.symm.trans hnames')
    have hdr := (Json.wellFormed_obj_iff.mp hresult).1
    show Json.same (.obj again) (.obj result) = true
    rw [Json.same_obj_iff (hdistinct' hdr) hdr]
    intro k
    obtain ⟨held, hheld, halike⟩ := hagain k
    rw [Except.ok.inj ((hafter' k).symm.trans hheld)]
    exact halike

/-- The maps of a patch have no effect a second time, at every depth. -/
theorem isRepeatable {v : Json} (hv : WellFormed v) (hnamed : everywhere hasNamedElements v = true)
    (hremovals : everywhere removesNoElements v = true) : IsRepeatable v := by
  induction v using Json.induction with
  | arr items ih =>
    have hw := Json.wellFormed_arr_iff.mp hv
    have hn := (Json.everywhere_arr_iff.mp hnamed).2
    have hr := (Json.everywhere_arr_iff.mp hremovals).2
    refine ⟨nofun, fun items' heq patch hmem => ?_⟩
    cases heq
    exact (ih _ hmem (hw _ hmem) (hn _ hmem) (hr _ hmem)).ofObject patch rfl
  | obj fs ih =>
    have hw := (Json.wellFormed_obj_iff.mp hv).2
    obtain ⟨hn₀, hn⟩ := Json.everywhere_obj_iff.mp hnamed
    obtain ⟨hr₀, hr⟩ := Json.everywhere_obj_iff.mp hremovals
    refine ⟨fun patch heq => ?_, nofun⟩
    cases heq
    exact isIdempotent_of_fields hv hn₀ hr₀ fun f hf => ih f hf (hw f hf) (hn f hf) (hr f hf)
  | _ => exact ⟨nofun, nofun⟩

/-- **To merge a patch again changes nothing.** The object tells the elements of its
keyed lists apart, and so does the patch, which takes none out by a removal. Then what
came of the merge can be merged again, and is equal to what comes of that. -/
theorem mergedObject_idempotent {base patch result : Fields Json} (hbase : WellFormed (.obj base))
    (hpatch : WellFormed (.obj patch)) (hunique : everywhere hasUniqueKeys (.obj base) = true)
    (hnamed : everywhere hasNamedElements (.obj patch) = true)
    (hremovals : everywhere removesNoElements (.obj patch) = true)
    (h : mergedObject base patch = .ok result) :
    ∃ again, mergedObject result patch = .ok again
      ∧ (Json.obj again).eqv (.obj result) = true := by
  obtain ⟨result?, hmerged, h⟩ := Outcome.bind_eq_ok_iff.mp h
  obtain rfl := Except.ok.inj h
  have hidempotent := (isRepeatable hpatch hnamed hremovals).ofObject patch rfl
  obtain ⟨again?, hagain, halike⟩ := hidempotent "" base result? hbase hunique hmerged
  refine ⟨again?.getD [], Outcome.bind_eq_ok_iff.mpr ⟨again?, hagain, rfl⟩, ?_⟩
  cases result? with
  | none =>
    cases again? with
    | none => rfl
    | some again => exact halike.elim
  | some result =>
    cases again? with
    | none => exact halike.elim
    | some again => exact halike

/-- A template with two containers. -/
def webAndLog : Fields Json :=
  [("containers", .arr [.obj [("name", .str "web"), ("image", .str "web:1")],
      .obj [("name", .str "log")]]),
   ("finalizers", .arr [.str "a"]),
   ("paused", .bool true)]

/-- A patch that keeps two lists, merges one container, deletes one and adds one. -/
def webWithoutLog : Fields Json :=
  [("containers", .arr [.obj [("image", .str "web:2"), ("name", .str "web")],
      .obj [("name", .str "log"), ("$patch", .str "delete")],
      .obj [("name", .str "proxy")]]),
   ("finalizers", .arr [.str "b"]),
   ("$retainKeys", .arr [.str "containers", .str "finalizers"])]

theorem mergedObject_idempotent_webWithoutLog :
    ∃ result, mergedObject webAndLog webWithoutLog = .ok result
      ∧ ∃ again, mergedObject result webWithoutLog = .ok again
        ∧ (Json.obj again).eqv (.obj result) = true := by
  refine ⟨[("containers", .arr [.obj [("name", .str "web"), ("image", .str "web:2")],
      .obj [("name", .str "proxy")]]), ("finalizers", .arr [.str "a", .str "b"])], by rfl, ?_⟩
  have hunique : everywhere hasUniqueKeys (.obj webAndLog) = true := by decide
  have hnamed : everywhere hasNamedElements (.obj webWithoutLog) = true := by decide
  have hremovals : everywhere removesNoElements (.obj webWithoutLog) = true := by decide
  exact mergedObject_idempotent (by decide) (by decide) hunique hnamed hremovals (by rfl)

end Patch
end Rollout
