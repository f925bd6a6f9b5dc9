import Rollout.Patch.Merge
import Rollout.Proofs.Fields
import Rollout.Proofs.Outcome

/-!
# A merge field by field

What becomes of a field depends on what the field held and on what the patch says
about it, and on no other field. Each phase of a merge, the fields of the patch, the
removals and the orders, goes through a list of entries with distinct names and
revises one field at a time (`Fields.revise`), so that a phase is known by what it
does to each look-up (`Fields.get?_of_foldlM_revise`) and succeeds if it can revise
each field (`Fields.exists_foldlM_revise`).

Put together, a map under its patch is known by `Patch.fieldAfter`: the result holds
under each name what `fieldAfter` makes of what the map held there
(`Patch.fieldAfter_of_merged`), and there is a result if `fieldAfter` can be had
everywhere (`Patch.exists_merged_of_fieldAfter`).
-/

namespace Rollout
namespace Fields

variable {α β : Type}

/-- **One field revised**: what it holds becomes what `f` makes of it. -/
def revise (f : Text → β → Option α → Outcome (Option α)) (fs : Fields α) (d : Text × β) :
    Outcome (Fields α) := do
  let held ← f d.1 d.2 (get? fs d.1)
  return put fs d.1 held

/-- What a field holds after it was revised by the entry with its name, if there is
one. -/
def revised (f : Text → β → Option α → Outcome (Option α)) (ds : Fields β) (k : Text)
    (held : Option α) : Outcome (Option α) :=
  match get? ds k with
  | none => .ok held
  | some d => f k d held

/-- To put back what a field holds changes nothing. -/
theorem put_get? (fs : Fields α) (k : Text) : put fs k (get? fs k) = fs := by
  induction fs with
  | nil => rfl
  | cons g fs ih =>
    obtain ⟨k', v⟩ := g
    by_cases hk : k' = k
    · subst hk
      rw [get?_cons, if_pos rfl, put, set, if_pos rfl]
    · rw [get?_cons, if_neg hk]
      cases hv : get? fs k with
      | none =>
        rw [hv] at ih
        rw [put, erase, List.filter_cons, if_pos (decide_eq_true hk)]
        exact congrArg ((k', v) :: ·) ih
      | some w =>
        rw [hv] at ih
        rw [put, set, if_neg hk]
        exact congrArg ((k', v) :: ·) ih

/-- To write what is there changes nothing. -/
theorem set_of_get? {fs : Fields α} {k : Text} {v : α} (h : get? fs k = some v) :
    set fs k v = fs := by
  have hput := put_get? fs k
  rwa [h] at hput

variable {f : Text → β → Option α → Outcome (Option α)}

theorem revise_eq_ok_iff {fs fs' : Fields α} {d : Text × β} :
    revise f fs d = .ok fs' ↔ ∃ held, f d.1 d.2 (get? fs d.1) = .ok held ∧ fs' = put fs d.1 held := by
  unfold revise
  cases hf : f d.1 d.2 (get? fs d.1) with
  | error e => exact iff_of_false (fun h => by cases h) (fun ⟨_, h, _⟩ => by cases h)
  | ok held =>
    constructor
    · intro h
      cases h
      exact ⟨held, rfl, rfl⟩
    · rintro ⟨_, h, rfl⟩
      cases h
      rfl

/-- **What each field holds after a phase** is what became of it by the entry with
its name. -/
theorem get?_of_foldlM_revise {ds : Fields β} (hd : Distinct ds) {fs fs' : Fields α}
    (h : ds.foldlM (revise f) fs = .ok fs') (k : Text) :
    revised f ds k (get? fs k) = .ok (get? fs' k) := by
  induction ds generalizing fs with
  | nil =>
    cases h
    rfl
  | cons d ds ih =>
    obtain ⟨k', a⟩ := d
    obtain ⟨hk', hd⟩ := distinct_cons_iff.mp hd
    rw [List.foldlM_cons] at h
    obtain ⟨gs, hg, h⟩ := Outcome.bind_eq_ok_iff.mp h
    obtain ⟨held, hf, rfl⟩ := revise_eq_ok_iff.mp hg
    have hrest := ih hd h
    rw [get?_put] at hrest
    unfold revised at hrest ⊢
    rw [get?_cons]
    by_cases hk : k' = k
    · subst hk
      rw [get?_eq_none_iff.mpr hk', if_pos rfl] at hrest
      rw [if_pos rfl]
      exact hf.trans hrest
    · rw [if_neg hk] at hrest
      rw [if_neg hk]
      exact hrest

/-- **A phase ends if every field can be revised.** -/
theorem exists_foldlM_revise {ds : Fields β} (hd : Distinct ds) (fs : Fields α)
    (h : ∀ k, ∃ held, revised f ds k (get? fs k) = .ok held) :
    ∃ fs', ds.foldlM (revise f) fs = .ok fs' := by
  induction ds generalizing fs with
  | nil => exact ⟨fs, rfl⟩
  | cons d ds ih =>
    obtain ⟨k', a⟩ := d
    obtain ⟨hk', hd⟩ := distinct_cons_iff.mp hd
    obtain ⟨held, hf⟩ := h k'
    unfold revised at hf
    rw [get?_cons, if_pos rfl] at hf
    obtain ⟨fs', hfs'⟩ := ih hd (put fs k' held) (fun k => by
      obtain ⟨held', hk⟩ := h k
      unfold revised at hk ⊢
      rw [get?_cons] at hk
      rw [get?_put]
      by_cases hkk : k' = k
      · subst hkk
        rw [get?_eq_none_iff.mpr hk']
        exact ⟨_, rfl⟩
      · rw [if_neg hkk] at hk ⊢
        exact ⟨held', hk⟩)
    refine ⟨fs', ?_⟩
    rw [List.foldlM_cons, revise_eq_ok_iff.mpr ⟨held, hf, rfl⟩]
    exact hfs'

/-- **What every revision keeps a phase keeps.** -/
theorem foldlM_revise_invariant {P : Fields α → Prop} {ds : Fields β}
    (hstep : ∀ fs d held, d ∈ ds → P fs → f d.1 d.2 (get? fs d.1) = .ok held →
      P (put fs d.1 held))
    {fs fs' : Fields α} (hfs : P fs) (h : ds.foldlM (revise f) fs = .ok fs') : P fs' := by
  induction ds generalizing fs with
  | nil =>
    cases h
    exact hfs
  | cons d ds ih =>
    rw [List.foldlM_cons] at h
    obtain ⟨gs, hg, h⟩ := Outcome.bind_eq_ok_iff.mp h
    obtain ⟨held, hf, rfl⟩ := revise_eq_ok_iff.mp hg
    exact ih (fun fs d held hd => hstep fs d held (List.mem_cons_of_mem _ hd))
      (hstep fs d held List.mem_cons_self hfs hf) h

/-- A phase keeps the names distinct. -/
theorem distinct_of_foldlM_revise {ds : Fields β} {fs fs' : Fields α} (hfs : Distinct fs)
    (h : ds.foldlM (revise f) fs = .ok fs') : Distinct fs' :=
  foldlM_revise_invariant (P := Distinct) (fun _ d held _ hfs _ => hfs.put d.1 held) hfs h

end Fields

namespace Patch

/-! ## The three phases -/

/-- The fields of a patch that are no directives. -/
def dataFields (patch : Fields Json) : Fields Json :=
  patch.filter (fun f => !isDirective f.1)

theorem get?_dataFields (patch : Fields Json) (k : Text) :
    Fields.get? (dataFields patch) k = if isDirective k then none else Fields.get? patch k := by
  show Fields.get? (patch.filter (fun f => !isDirective f.1)) k = _
  rw [Fields.get?_filter patch (fun k => !isDirective k) k]
  cases isDirective k <;> rfl

/-- What a field holds once the patch's value was put at it. -/
def mergedAt (path k : Text) (v : Json) (held : Option Json) : Outcome (Option Json) :=
  mergedValue (fieldPath path k) k held v

/-- What a field holds once a removal was carried out on it. -/
def removedAt (_ : Text) (values : Json) : Option Json → Outcome (Option Json)
  | some (.arr items) => do return some (.arr (← withoutListed items values))
  | held => .ok held

/-- What a field holds once an order was carried out on it. -/
def orderedAt (path k : Text) (order : Json) : Option Json → Outcome (Option Json)
  | some (.arr items) => do
    return some (.arr (← inOrder (mergeKey? k) (fieldPath path k) items order))
  | held => .ok held

theorem mergedFields_eq_foldlM (path : Text) (base patch : Fields Json) :
    mergedFields path base patch = (dataFields patch).foldlM (Fields.revise (mergedAt path)) base := by
  induction patch generalizing base with
  | nil => rw [mergedFields]; rfl
  | cons f patch ih =>
    obtain ⟨k, v⟩ := f
    rw [mergedFields]
    cases hk : isDirective k with
    | true =>
      rw [if_pos rfl, ih, dataFields, dataFields, List.filter_cons, if_neg (by rw [hk]; decide)]
    | false =>
      rw [if_neg Bool.false_ne_true, dataFields, List.filter_cons, if_pos (by rw [hk]; rfl),
        List.foldlM_cons, Fields.revise, mergedAt]
      cases mergedValue (fieldPath path k) k (Fields.get? base k) v with
      | error e => rfl
      | ok held => cases held <;> exact ih _

theorem remove_eq_revise (fs : Fields Json) (d : Text × Json) :
    remove fs d.1 d.2 = Fields.revise removedAt fs d := by
  unfold remove Fields.revise
  have hput := Fields.put_get? fs d.1
  split
  · rename_i items heq
    rw [heq, removedAt]
    cases withoutListed items d.2 <;> rfl
  · rename_i held hne
    have hrest : removedAt d.1 d.2 (Fields.get? fs d.1) = .ok (Fields.get? fs d.1) := by
      unfold removedAt
      split
      · rename_i items heq
        exact absurd heq (hne items)
      · rfl
    rw [hrest]
    exact congrArg Except.ok hput.symm

theorem reorder_eq_revise (path : Text) (fs : Fields Json) (d : Text × Json) :
    reorder path fs d.1 d.2 = Fields.revise (orderedAt path) fs d := by
  unfold reorder Fields.revise
  have hput := Fields.put_get? fs d.1
  split
  · rename_i items heq
    rw [heq, orderedAt]
    cases inOrder (mergeKey? d.1) (fieldPath path d.1) items d.2 <;> rfl
  · rename_i held hne
    have hrest : orderedAt path d.1 d.2 (Fields.get? fs d.1) = .ok (Fields.get? fs d.1) := by
      unfold orderedAt
      split
      · rename_i items heq
        exact absurd heq (hne items)
      · rfl
    rw [hrest]
    exact congrArg Except.ok hput.symm

/-! ## Directives about lists -/

/-- A directive about a list is named by its stem and the list. -/
theorem listOf?_eq_some_iff {stem name field : Text} :
    listOf? stem name = some field ↔ name = stem ++ field := by
  unfold listOf?
  constructor
  · intro h
    split at h
    · rename_i hp
      obtain ⟨rest, rfl⟩ := List.isPrefixOf_iff_prefix.mp hp
      rw [List.drop_left] at h
      rw [Option.some.inj h]
    · cases h
  · rintro rfl
    rw [if_pos (List.isPrefixOf_iff_prefix.mpr (List.prefix_append stem field)), List.drop_left]

/-- **The directives with a stem**, each under the list it is about. -/
def directivesOf (stem : Text) (patch : Fields Json) : Fields Json :=
  patch.filterMap (fun f => (listOf? stem f.1).map (fun field => (field, f.2)))

/-- A directive about a list is looked up by its name. -/
theorem get?_directivesOf (stem : Text) (patch : Fields Json) (k : Text) :
    Fields.get? (directivesOf stem patch) k = Fields.get? patch (stem ++ k) := by
  induction patch with
  | nil => rfl
  | cons f patch ih =>
    obtain ⟨name, v⟩ := f
    unfold directivesOf at ih ⊢
    rw [List.filterMap_cons, Fields.get?_cons]
    cases hl : listOf? stem name with
    | none =>
      have hne : name ≠ stem ++ k := by
        intro h
        rw [listOf?_eq_some_iff.mpr h] at hl
        cases hl
      rw [if_neg hne]
      exact ih
    | some field =>
      obtain rfl := listOf?_eq_some_iff.mp hl
      show Fields.get? ((field, v) :: _) k = _
      rw [Fields.get?_cons, ih]
      by_cases hk : field = k
      · rw [if_pos hk, if_pos (congrArg (stem ++ ·) hk)]
      · rw [if_neg hk, if_neg fun h => hk (List.append_cancel_left h)]

theorem directivesOf_append (stem : Text) (fs gs : Fields Json) :
    directivesOf stem (fs ++ gs) = directivesOf stem fs ++ directivesOf stem gs :=
  List.filterMap_append

theorem distinct_directivesOf (stem : Text) {patch : Fields Json} (h : Fields.Distinct patch) :
    Fields.Distinct (directivesOf stem patch) := by
  have hnames : Fields.names (directivesOf stem patch)
      = (Fields.names patch).filterMap (listOf? stem) := by
    rw [Fields.names, Fields.names, directivesOf, List.map_filterMap, List.filterMap_map]
    refine List.filterMap_congr fun f _ => ?_
    rw [Function.comp_apply, Option.map_map]
    exact Option.map_id'
  rw [Fields.Distinct, hnames]
  refine h.filterMap fun a a' b hb hb' => ?_
  rw [listOf?_eq_some_iff.mp hb, listOf?_eq_some_iff.mp hb']

theorem listOf?_eq_none_of_not_isDirective {stem name : Text} (hs : stem.head? = some (.char '$'))
    (h : isDirective name = false) : listOf? stem name = none := by
  by_contra hne
  obtain ⟨field, hf⟩ := Option.ne_none_iff_exists'.mp hne
  obtain rfl := listOf?_eq_some_iff.mp hf
  rw [isDirective, List.head?_append, hs, Option.some_or] at h
  exact absurd h (by decide)

/-- No directive has both stems. -/
theorem listOf?_removalStem_eq_none {name field : Text} (h : listOf? orderStem name = some field) :
    listOf? removalStem name = none := by
  by_contra hne
  obtain ⟨field', hf⟩ := Option.ne_none_iff_exists'.mp hne
  have heq := (listOf?_eq_some_iff.mp h).symm.trans (listOf?_eq_some_iff.mp hf)
  have hsecond : some (CodePoint.char 's') = some (.char 'd') :=
    congrArg (fun t : Text => t[1]?) heq
  exact absurd hsecond (by decide)

/-- What one field of a patch adds to the list directives. -/
theorem addListDirective_eq_ok {path name : Text} {v : Json} {ds ds' : ListDirectives}
    (h : addListDirective path ds name v = .ok ds') :
    ds'.orders = ds.orders ++ directivesOf orderStem [(name, v)]
      ∧ ds'.removals = ds.removals ++ directivesOf removalStem [(name, v)] := by
  have hone : ∀ stem, directivesOf stem [(name, v)]
      = ((listOf? stem name).map (fun field => (field, v))).toList := by
    intro stem
    unfold directivesOf
    rw [List.filterMap_cons]
    cases listOf? stem name <;> rfl
  rw [hone, hone]
  unfold addListDirective at h
  split at h
  · rename_i hname
    have hnone : listOf? orderStem name = none ∧ listOf? removalStem name = none := by
      rcases hname with rfl | rfl | hname
      · decide
      · decide
      · have hn : isDirective name = false := by simpa using hname
        exact ⟨listOf?_eq_none_of_not_isDirective (by decide) hn,
          listOf?_eq_none_of_not_isDirective (by decide) hn⟩
    cases h
    rw [hnone.1, hnone.2]
    exact ⟨(List.append_nil _).symm, (List.append_nil _).symm⟩
  · split at h
    · rename_i field ho
      cases h
      rw [ho, listOf?_removalStem_eq_none ho]
      exact ⟨rfl, (List.append_nil _).symm⟩
    · rename_i ho
      split at h
      · rename_i field hr
        cases h
        rw [ho, hr]
        exact ⟨(List.append_nil _).symm, rfl⟩
      · cases h

/-- **The list directives that are collected** are those with the two stems. -/
theorem listDirectives_eq_ok {path : Text} {patch : Fields Json} {ds : ListDirectives}
    (h : listDirectives path patch = .ok ds) :
    ds.orders = directivesOf orderStem patch ∧ ds.removals = directivesOf removalStem patch := by
  have hfold : ∀ (gs : Fields Json) (ds₀ : ListDirectives),
      gs.foldlM (fun ds f => addListDirective path ds f.1 f.2) ds₀ = .ok ds →
      ds.orders = ds₀.orders ++ directivesOf orderStem gs
        ∧ ds.removals = ds₀.removals ++ directivesOf removalStem gs := by
    intro gs
    induction gs with
    | nil =>
      intro ds₀ h
      cases h
      exact ⟨(List.append_nil _).symm, (List.append_nil _).symm⟩
    | cons g gs ih =>
      intro ds₀ h
      rw [List.foldlM_cons] at h
      obtain ⟨ds₁, h₁, h⟩ := Outcome.bind_eq_ok_iff.mp h
      obtain ⟨ho, hr⟩ := addListDirective_eq_ok h₁
      obtain ⟨ho', hr'⟩ := ih ds₁ h
      rw [ho', hr', ho, hr, List.append_assoc, List.append_assoc, ← directivesOf_append,
        ← directivesOf_append]
      exact ⟨rfl, rfl⟩
  exact hfold patch ⟨[], []⟩ h

/-! ## A whole map -/

/-- What a field holds of what the map may keep. -/
def keptAt (names? : Option (List Text)) (k : Text) (held : Option Json) : Option Json :=
  match names? with
  | none => held
  | some names => if names.contains k then held else none

/-- **What becomes of a field** of a map under its patch: kept or not, then merged,
reduced and ordered. -/
def fieldAfter (path : Text) (patch : Fields Json) (names? : Option (List Text)) (k : Text)
    (held : Option Json) : Outcome (Option Json) := do
  let merged ← Fields.revised (mergedAt path) (dataFields patch) k (keptAt names? k held)
  let reduced ← Fields.revised removedAt (directivesOf removalStem patch) k merged
  Fields.revised (orderedAt path) (directivesOf orderStem patch) k reduced

/-- A map under its patch, with nothing said about it as a whole. -/
abbrev merged (path : Text) (base patch : Fields Json) : Outcome (Option (Fields Json)) :=
  directed path base patch (fun kept => mergedFields path kept patch)

/-- The fields of a map that it may keep. -/
def keptFields (names? : Option (List Text)) (base : Fields Json) : Fields Json :=
  match names? with
  | none => base
  | some names => base.filter (fun f => names.contains f.1)

theorem get?_keptFields (names? : Option (List Text)) (base : Fields Json) (k : Text) :
    Fields.get? (keptFields names? base) k = keptAt names? k (Fields.get? base k) := by
  cases names? with
  | none => rfl
  | some names => exact Fields.get?_filter base names.contains k

theorem distinct_keptFields (names? : Option (List Text)) {base : Fields Json}
    (h : Fields.Distinct base) : Fields.Distinct (keptFields names? base) := by
  cases names? with
  | none => exact h
  | some names => exact h.filter _

/-- A map that its patch replaces is the patch, less its directives. -/
theorem merged_of_replace {path : Text} {patch : Fields Json}
    (hmode : mode path patch = .ok .replace) (base : Fields Json) :
    merged path base patch = .ok (some (Json.strippedFields patch)) := by
  unfold merged directed
  rw [hmode]
  rfl

/-- A map that its patch deletes is gone. -/
theorem merged_of_delete {path : Text} {patch : Fields Json}
    (hmode : mode path patch = .ok .delete) (base : Fields Json) :
    merged path base patch = .ok none := by
  unfold merged directed
  rw [hmode]
  rfl

/-- In merge mode the phases follow each other. -/
theorem merged_eq_phases {path : Text} {base patch : Fields Json} {names? : Option (List Text)}
    {ds : ListDirectives} (hmode : mode path patch = .ok .merge)
    (hnames : retained? path patch = .ok names?) (hds : listDirectives path patch = .ok ds) :
    merged path base patch = (do
      let data ← (dataFields patch).foldlM (Fields.revise (mergedAt path)) (keptFields names? base)
      let reduced ← (directivesOf removalStem patch).foldlM (Fields.revise removedAt) data
      let result ← (directivesOf orderStem patch).foldlM (Fields.revise (orderedAt path)) reduced
      return some result) := by
  obtain ⟨ho, hr⟩ := listDirectives_eq_ok hds
  have hremove : (fun r (d : Text × Json) => remove r d.1 d.2) = Fields.revise removedAt := by
    funext r d
    exact remove_eq_revise r d
  have hreorder : (fun r (d : Text × Json) => reorder path r d.1 d.2)
      = Fields.revise (orderedAt path) := by
    funext r d
    exact reorder_eq_revise path r d
  unfold merged directed
  rw [hmode]
  simp only [bind, Except.bind, hnames, hds, hremove, hreorder, ho, hr, mergedFields_eq_foldlM]
  cases names? <;> rfl

/-- A map that was put under its patch was given directives that can be read. -/
theorem exists_directives_of_merged {path : Text} {base patch : Fields Json}
    {result? : Option (Fields Json)} (hmode : mode path patch = .ok .merge)
    (h : merged path base patch = .ok result?) :
    ∃ names? ds, retained? path patch = .ok names? ∧ listDirectives path patch = .ok ds := by
  unfold merged directed at h
  rw [hmode] at h
  obtain ⟨_, hm, h⟩ := Outcome.bind_eq_ok_iff.mp h
  obtain rfl := Except.ok.inj hm
  obtain ⟨names?, hnames, h⟩ := Outcome.bind_eq_ok_iff.mp h
  cases names? <;>
    obtain ⟨_, -, h⟩ := Outcome.bind_eq_ok_iff.mp h <;>
    obtain ⟨ds, hds, -⟩ := Outcome.bind_eq_ok_iff.mp h <;>
    exact ⟨_, ds, hnames, hds⟩

/-- **A map under its patch holds under each name what became of the field.** -/
theorem fieldAfter_of_merged {path : Text} {base patch : Fields Json}
    {result? : Option (Fields Json)} (hd : Fields.Distinct patch)
    (hmode : mode path patch = .ok .merge) (h : merged path base patch = .ok result?) :
    ∃ names? ds result, retained? path patch = .ok names? ∧ listDirectives path patch = .ok ds
      ∧ result? = some result ∧ (Fields.Distinct base → Fields.Distinct result)
      ∧ ∀ k, fieldAfter path patch names? k (Fields.get? base k)
          = .ok (Fields.get? result k) := by
  obtain ⟨names?, ds, hnames, hds⟩ := exists_directives_of_merged hmode h
  rw [merged_eq_phases hmode hnames hds] at h
  obtain ⟨data, hdata, h⟩ := Outcome.bind_eq_ok_iff.mp h
  obtain ⟨reduced, hreduced, h⟩ := Outcome.bind_eq_ok_iff.mp h
  obtain ⟨result, hresult, h⟩ := Outcome.bind_eq_ok_iff.mp h
  refine ⟨names?, ds, result, hnames, hds, (Except.ok.inj h).symm, fun hbase => ?_, fun k => ?_⟩
  · have h₁ := Fields.distinct_of_foldlM_revise (distinct_keptFields names? hbase) hdata
    exact Fields.distinct_of_foldlM_revise (Fields.distinct_of_foldlM_revise h₁ hreduced) hresult
  · have h₁ := Fields.get?_of_foldlM_revise (hd.filter _) hdata k
    have h₂ := Fields.get?_of_foldlM_revise (distinct_directivesOf _ hd) hreduced k
    have h₃ := Fields.get?_of_foldlM_revise (distinct_directivesOf _ hd) hresult k
    rw [get?_keptFields] at h₁
    exact Outcome.bind_eq_ok_iff.mpr ⟨_, h₁, Outcome.bind_eq_ok_iff.mpr ⟨_, h₂, h₃⟩⟩

/-- **A map can be put under its patch** if something becomes of every field. -/
theorem exists_merged_of_fieldAfter {path : Text} {base patch : Fields Json}
    {names? : Option (List Text)} {ds : ListDirectives} (hd : Fields.Distinct patch)
    (hmode : mode path patch = .ok .merge) (hnames : retained? path patch = .ok names?)
    (hds : listDirectives path patch = .ok ds)
    (h : ∀ k, ∃ held, fieldAfter path patch names? k (Fields.get? base k) = .ok held) :
    ∃ result, merged path base patch = .ok (some result) := by
  have hphases : ∀ k, ∃ a b c,
      Fields.revised (mergedAt path) (dataFields patch) k (keptAt names? k (Fields.get? base k))
        = .ok a
      ∧ Fields.revised removedAt (directivesOf removalStem patch) k a = .ok b
      ∧ Fields.revised (orderedAt path) (directivesOf orderStem patch) k b = .ok c := by
    intro k
    obtain ⟨c, hk⟩ := h k
    obtain ⟨a, ha, hk⟩ := Outcome.bind_eq_ok_iff.mp hk
    obtain ⟨b, hb, hc⟩ := Outcome.bind_eq_ok_iff.mp hk
    exact ⟨a, b, c, ha, hb, hc⟩
  obtain ⟨data, hdata⟩ := Fields.exists_foldlM_revise (f := mergedAt path) (hd.filter _)
    (keptFields names? base) fun k => by
      obtain ⟨a, -, -, ha, -⟩ := hphases k
      rw [get?_keptFields]
      exact ⟨a, ha⟩
  have hdata' := fun k => get?_keptFields names? base k ▸
    Fields.get?_of_foldlM_revise (hd.filter _) hdata k
  obtain ⟨reduced, hreduced⟩ := Fields.exists_foldlM_revise (f := removedAt)
    (distinct_directivesOf removalStem hd) data fun k => by
      obtain ⟨a, b, -, ha, hb, -⟩ := hphases k
      obtain rfl := Except.ok.inj (ha.symm.trans (hdata' k))
      exact ⟨b, hb⟩
  have hreduced' := Fields.get?_of_foldlM_revise (distinct_directivesOf removalStem hd) hreduced
  obtain ⟨result, hresult⟩ := Fields.exists_foldlM_revise (f := orderedAt path)
    (distinct_directivesOf orderStem hd) reduced fun k => by
      obtain ⟨a, b, c, ha, hb, hc⟩ := hphases k
      obtain rfl := Except.ok.inj (ha.symm.trans (hdata' k))
      obtain rfl := Except.ok.inj (hb.symm.trans (hreduced' k))
      exact ⟨c, hc⟩
  refine ⟨result, ?_⟩
  rw [merged_eq_phases hmode hnames hds]
  exact Outcome.bind_eq_ok_iff.mpr ⟨data, hdata, Outcome.bind_eq_ok_iff.mpr
    ⟨reduced, hreduced, Outcome.bind_eq_ok_iff.mpr ⟨result, hresult, rfl⟩⟩⟩

end Patch
end Rollout
