import Rollout.Proofs.Json.Sameness
import Rollout.Proofs.Patch.Fieldwise

/-!
# Removals and orders

After a patch's value was put at a field, a list there loses what a removal names and
is sorted by an order (`Patch.arranged`). Neither step makes anything new: a removal
tests the elements one by one (`Patch.isSearched`, `Patch.isListed`), and an order
looks at nothing but what identifies them. A list that was arranged once is therefore
left alone the second time, and so is one in which the elements were replaced by
others with their identities and to which elements were added that the removal takes
out again (`Patch.IsArranged`).
-/

namespace Rollout
namespace Patch

open Json (WellFormed)

/-! ## Removals -/

/-- A removal can tell whether it names the element. -/
def isSearched : Option Json → Json → Bool
  | none, _ => true
  | some (.arr _), _ => true
  | some (.obj _), j => identifies j
  | some (.str _), .str _ => true
  | _, _ => false

/-- A removal names the element. -/
def isListed : Option Json → Json → Bool
  | some (.arr listed), j => j.isIn listed
  | some (.obj fs), .str s => Fields.has fs s
  | some (.str text), .str s => occursIn s text
  | _, _ => false

/-- Without a removal every element is left. -/
theorem filter_isListed_none (items : List Json) :
    items.filter (fun j => !isListed none j) = items :=
  List.filter_eq_self.mpr fun _ _ => rfl

/-- A removal that is a text keeps the texts that do not occur in it. -/
theorem mapM_occurrences_eq_ok {text : Text} {items : List Json} {found : List (Option Json)}
    (h : items.mapM (fun j => match j with
      | .str s => Except.ok (if occursIn s text then none else some j)
      | _ => (.error .malformed : Outcome (Option Json))) = .ok found) :
    (∀ j ∈ items, isSearched (some (.str text)) j = true)
      ∧ found.filterMap id = items.filter (fun j => !isListed (some (.str text)) j) := by
  induction items generalizing found with
  | nil =>
    cases h
    exact ⟨fun j hj => absurd hj List.not_mem_nil, rfl⟩
  | cons j items ih =>
    rw [List.mapM_cons] at h
    obtain ⟨one, hone, h⟩ := Outcome.bind_eq_ok_iff.mp h
    obtain ⟨rest, hrest, h⟩ := Outcome.bind_eq_ok_iff.mp h
    cases h
    obtain ⟨hs, hk⟩ := ih hrest
    cases j with
    | str s =>
      cases hone
      refine ⟨List.forall_mem_cons.mpr ⟨rfl, hs⟩, ?_⟩
      rw [List.filterMap_cons, List.filter_cons, isListed, ← hk]
      cases occursIn s text <;> rfl
    | _ => cases hone

/-- **A removal tests every element** and leaves those it does not name. -/
theorem withoutListed_eq_ok {items kept : List Json} {values : Json}
    (h : withoutListed items values = .ok kept) :
    (∀ j ∈ items, isSearched (some values) j = true)
      ∧ kept = items.filter (fun j => !isListed (some values) j) := by
  unfold withoutListed at h
  split at h
  · cases h
    exact ⟨fun j hj => absurd hj List.not_mem_nil, rfl⟩
  · cases h
    exact ⟨fun _ _ => rfl, rfl⟩
  · split at h
    · rename_i fs _ hall
      cases h
      refine ⟨List.all_eq_true.mp hall, List.filter_congr fun j _ => ?_⟩
      cases j <;> rfl
    · cases h
  · obtain ⟨found, hfound, hkept⟩ := Outcome.bind_eq_ok_iff.mp h
    cases hkept
    exact mapM_occurrences_eq_ok hfound
  · cases h

/-- What a removal leaves was there. -/
theorem mem_of_withoutListed {items kept : List Json} {values : Json}
    (h : withoutListed items values = .ok kept) : ∀ x ∈ kept, x ∈ items := by
  obtain ⟨-, rfl⟩ := withoutListed_eq_ok h
  exact fun _ hx => List.mem_of_mem_filter hx

/-- A removal that can tell of every element is carried out. -/
theorem withoutListed_of_isSearched {items : List Json} {values : Json}
    (h : ∀ j ∈ items, isSearched (some values) j = true) :
    withoutListed items values = .ok (items.filter (fun j => !isListed (some values) j)) := by
  cases items with
  | nil => rfl
  | cons x xs =>
    have hx := h x List.mem_cons_self
    cases values with
    | arr listed => rfl
    | obj fs =>
      have hall : (x :: xs).all identifies = true := List.all_eq_true.mpr h
      rw [withoutListed, if_pos hall]
      · exact congrArg Except.ok (List.filter_congr fun j _ => by cases j <;> rfl)
      · exact nofun
    | str text =>
      have hfound : ∃ found, (x :: xs).mapM (fun j => match j with
          | .str s => Except.ok (if occursIn s text then none else some j)
          | _ => (.error .malformed : Outcome (Option Json))) = .ok found := by
        generalize x :: xs = items at h
        induction items with
        | nil => exact ⟨[], rfl⟩
        | cons j items ih =>
          obtain ⟨hj, hs⟩ := List.forall_mem_cons.mp h
          obtain ⟨found, hfound⟩ := ih hs
          cases j with
          | str s => exact ⟨_ :: found, by rw [List.mapM_cons, hfound]; rfl⟩
          | _ => cases hj
      obtain ⟨found, hfound⟩ := hfound
      rw [withoutListed]
      · exact Outcome.bind_eq_ok_iff.mpr
          ⟨found, hfound, congrArg Except.ok (mapM_occurrences_eq_ok hfound).2⟩
      · exact nofun
    | _ => cases x <;> cases hx

/-- What is the same as a text is the text. -/
theorem eq_str_of_same {j : Json} {s : Text} (h : j.same (.str s) = true) : j = .str s := by
  cases j with
  | str t => exact congrArg Json.str (beq_iff_eq.mp h)
  | _ => cases h

/-- A removal names what is the same as an element that it names. -/
theorem isListed_of_same {removal? : Option Json} {x y : Json}
    (hr : ∀ values, removal? = some values → WellFormed values) (hx : WellFormed x)
    (hy : WellFormed y) (hxy : x.same y = true) (hs : isSearched removal? y = true)
    (h : isListed removal? y = true) :
    isSearched removal? x = true ∧ isListed removal? x = true := by
  have hstr : ∀ s, y = .str s → x = y := by
    rintro s rfl
    exact eq_str_of_same hxy
  match removal? with
  | none => cases h
  | some (.arr listed) =>
    obtain ⟨z, hz, hyz⟩ := List.any_eq_true.mp h
    have hlisted := Json.wellFormed_arr_iff.mp (hr _ rfl) z hz
    exact ⟨rfl, List.any_eq_true.mpr ⟨z, hz, Json.same_trans hx hy hlisted hxy hyz⟩⟩
  | some (.obj fs) =>
    cases y with
    | str s => rw [hstr s rfl]; exact ⟨hs, h⟩
    | _ => cases h
  | some (.str text) =>
    cases y with
    | str s => rw [hstr s rfl]; exact ⟨hs, h⟩
    | _ => cases h
  | some .null => cases h
  | some (.bool _) => cases h
  | some (.int _) => cases h
  | some (.float _) => cases h

/-! ## Orders -/

/-- An order keeps the elements. -/
theorem perm_of_inOrder {key? : Option Text} {path : Text} {items sorted : List Json}
    {order : Json} (h : inOrder key? path items order = .ok sorted) : sorted.Perm items := by
  unfold inOrder at h
  split at h
  · simp only at h
    split at h
    · cases h
      exact List.mergeSort_perm _ _
    · cases h
  · cases h

/-- **What was sorted stays as it is**, and so does what has the same identities. -/
theorem inOrder_again {key? : Option Text} {path : Text} {items sorted again : List Json}
    {order : Json} (h : inOrder key? path items order = .ok sorted)
    (hids : again.map (identity key?) = sorted.map (identity key?)) :
    inOrder key? path again order = .ok again := by
  unfold inOrder at h ⊢
  split at h
  · rename_i entries
    simp only at h ⊢
    generalize entries.map (identity key?) = identities at h ⊢
    split at h
    · rename_i hall
      have hsorted := (Except.ok.inj h).symm
      obtain ⟨hid, hitems⟩ := Bool.and_eq_true_iff.mp hall
      have hfits : again.all (fun j => identifies (identity key? j)) = true := by
        have hmap : (sorted.map (identity key?)).all identifies = true := by
          rw [List.all_map, hsorted, List.all_eq_true]
          exact fun x hx => List.all_eq_true.mp hitems x (List.mem_mergeSort.mp hx)
        rw [← hids, List.all_map] at hmap
        exact hmap
      rw [if_pos (Bool.and_eq_true_iff.mpr ⟨hid, hfits⟩)]
      refine congrArg Except.ok (List.mergeSort_of_pairwise ?_)
      -- places depend on identities alone, which are those of the sorted list
      have hpair : sorted.Pairwise (fun a b =>
          decide (place (lastPlaces identities 0) (identity key? a)
            ≤ place (lastPlaces identities 0) (identity key? b)) = true) := by
        rw [hsorted]
        refine List.pairwise_mergeSort (fun a b c hab hbc => ?_) (fun a b => ?_) items
        · exact decide_eq_true (le_trans (of_decide_eq_true hab) (of_decide_eq_true hbc))
        · rw [Bool.or_eq_true, decide_eq_true_eq, decide_eq_true_eq]
          exact le_total _ _
      have hmap := hpair.map (S := fun a b => decide (place (lastPlaces identities 0) a
        ≤ place (lastPlaces identities 0) b) = true) (identity key?) (fun _ _ hab => hab)
      rw [← hids] at hmap
      exact List.pairwise_map.mp hmap
    · cases h
  · cases h

/-! ## The two steps together -/

/-- **What a field holds after its removal and its order.** -/
def arranged (path : Text) (patch : Fields Json) (k : Text) (held : Option Json) :
    Outcome (Option Json) := do
  let reduced ← Fields.revised removedAt (directivesOf removalStem patch) k held
  Fields.revised (orderedAt path) (directivesOf orderStem patch) k reduced

theorem fieldAfter_eq (path : Text) (patch : Fields Json) (names? : Option (List Text)) (k : Text)
    (held : Option Json) :
    fieldAfter path patch names? k held
      = Fields.revised (mergedAt path) (dataFields patch) k (keptAt names? k held)
        >>= arranged path patch k := rfl

/-- Nothing but a list is arranged. -/
theorem arranged_of_not_arr {path : Text} {patch : Fields Json} {k : Text} {held : Option Json}
    (h : ∀ items, held ≠ some (.arr items)) : arranged path patch k held = .ok held := by
  have hr : Fields.revised removedAt (directivesOf removalStem patch) k held = .ok held := by
    unfold Fields.revised removedAt
    split
    · rfl
    · split
      · exact absurd rfl (h _)
      · rfl
  have ho : Fields.revised (orderedAt path) (directivesOf orderStem patch) k held = .ok held := by
    unfold Fields.revised orderedAt
    split
    · rfl
    · split
      · exact absurd rfl (h _)
      · rfl
  exact Outcome.bind_eq_ok_iff.mpr ⟨held, hr, ho⟩

theorem revised_removedAt_eq_ok {patch : Fields Json} {k : Text} {items : List Json}
    {held : Option Json}
    (h : Fields.revised removedAt (directivesOf removalStem patch) k (some (.arr items))
      = .ok held) :
    (∀ j ∈ items, isSearched (Fields.get? patch (removalStem ++ k)) j = true)
      ∧ held = some (.arr (items.filter
          (fun j => !isListed (Fields.get? patch (removalStem ++ k)) j))) := by
  unfold Fields.revised at h
  rw [get?_directivesOf] at h
  cases hr : Fields.get? patch (removalStem ++ k) with
  | none =>
    rw [hr] at h
    cases h
    exact ⟨fun _ _ => rfl, by rw [filter_isListed_none]⟩
  | some values =>
    rw [hr] at h
    obtain ⟨kept, hkept, hheld⟩ := Outcome.bind_eq_ok_iff.mp h
    cases hheld
    obtain ⟨hs, rfl⟩ := withoutListed_eq_ok hkept
    exact ⟨hs, rfl⟩

theorem revised_removedAt_of_isSearched {patch : Fields Json} {k : Text} {items : List Json}
    (h : ∀ j ∈ items, isSearched (Fields.get? patch (removalStem ++ k)) j = true) :
    Fields.revised removedAt (directivesOf removalStem patch) k (some (.arr items))
      = .ok (some (.arr (items.filter
          (fun j => !isListed (Fields.get? patch (removalStem ++ k)) j)))) := by
  unfold Fields.revised
  rw [get?_directivesOf]
  cases hr : Fields.get? patch (removalStem ++ k) with
  | none =>
    rw [filter_isListed_none]
  | some values =>
    rw [hr] at h
    exact Outcome.bind_eq_ok_iff.mpr ⟨_, withoutListed_of_isSearched h, rfl⟩

theorem revised_orderedAt_eq_ok {path : Text} {patch : Fields Json} {k : Text}
    {items : List Json} {held : Option Json}
    (h : Fields.revised (orderedAt path) (directivesOf orderStem patch) k (some (.arr items))
      = .ok held) :
    ∃ sorted, held = some (.arr sorted) ∧ sorted.Perm items
      ∧ ∀ again : List Json,
        again.map (identity (mergeKey? k)) = sorted.map (identity (mergeKey? k)) →
        Fields.revised (orderedAt path) (directivesOf orderStem patch) k (some (.arr again))
          = .ok (some (.arr again)) := by
  unfold Fields.revised at h ⊢
  rw [get?_directivesOf] at h ⊢
  cases ho : Fields.get? patch (orderStem ++ k) with
  | none =>
    rw [ho] at h
    cases h
    exact ⟨items, rfl, List.Perm.refl items, fun _ _ => rfl⟩
  | some order =>
    rw [ho] at h
    obtain ⟨sorted, hsorted, hheld⟩ := Outcome.bind_eq_ok_iff.mp h
    cases hheld
    refine ⟨sorted, rfl, perm_of_inOrder hsorted, fun again hids => ?_⟩
    exact Outcome.bind_eq_ok_iff.mpr ⟨again, inOrder_again hsorted hids, rfl⟩

/-- **A list was arranged**: the removal could tell of every element, those it does not
name were put in order, and it has no effect a second time – elements with the same
identities may stand in place of its own, and what the removal names may have been
added. -/
structure IsArranged (path : Text) (patch : Fields Json) (k : Text) (items sorted : List Json) :
    Prop where
  searched : ∀ j ∈ items, isSearched (Fields.get? patch (removalStem ++ k)) j = true
  perm : sorted.Perm (items.filter (fun j => !isListed (Fields.get? patch (removalStem ++ k)) j))
  again : ∀ again extra : List Json,
    again.map (identity (mergeKey? k)) = sorted.map (identity (mergeKey? k)) →
    (∀ j ∈ again, isSearched (Fields.get? patch (removalStem ++ k)) j = true
      ∧ isListed (Fields.get? patch (removalStem ++ k)) j = false) →
    (∀ j ∈ extra, isSearched (Fields.get? patch (removalStem ++ k)) j = true
      ∧ isListed (Fields.get? patch (removalStem ++ k)) j = true) →
    arranged path patch k (some (.arr (again ++ extra))) = .ok (some (.arr again))

/-- **What comes of a list is the list arranged.** -/
theorem exists_isArranged {path : Text} {patch : Fields Json} {k : Text} {items : List Json}
    {held : Option Json} (h : arranged path patch k (some (.arr items)) = .ok held) :
    ∃ sorted, held = some (.arr sorted) ∧ IsArranged path patch k items sorted := by
  obtain ⟨reduced, hreduced, h⟩ := Outcome.bind_eq_ok_iff.mp h
  obtain ⟨hsearched, rfl⟩ := revised_removedAt_eq_ok hreduced
  obtain ⟨sorted, rfl, hperm, hagain⟩ := revised_orderedAt_eq_ok h
  refine ⟨sorted, rfl, hsearched, hperm, fun again extra hids hkept hextra => ?_⟩
  have hall : ∀ j ∈ again ++ extra,
      isSearched (Fields.get? patch (removalStem ++ k)) j = true := fun j hj =>
    (List.mem_append.mp hj).elim (fun hj => (hkept j hj).1) (fun hj => (hextra j hj).1)
  have hfilter : (again ++ extra).filter
      (fun j => !isListed (Fields.get? patch (removalStem ++ k)) j) = again := by
    rw [List.filter_append, List.filter_eq_self.mpr fun j hj => by rw [(hkept j hj).2]; rfl,
      List.filter_eq_nil_iff.mpr fun j hj => by rw [(hextra j hj).2]; decide, List.append_nil]
  have hr := revised_removedAt_of_isSearched hall
  rw [hfilter] at hr
  exact Outcome.bind_eq_ok_iff.mpr ⟨_, hr, hagain again hids⟩

variable {path : Text} {patch : Fields Json} {k : Text} {items sorted : List Json}

/-- What is left in an arranged list is not named by the removal. -/
theorem IsArranged.kept (h : IsArranged path patch k items sorted) :
    ∀ j ∈ sorted, isSearched (Fields.get? patch (removalStem ++ k)) j = true
      ∧ isListed (Fields.get? patch (removalStem ++ k)) j = false := by
  intro j hj
  obtain ⟨hmem, hl⟩ := List.mem_filter.mp (h.perm.mem_iff.mp hj)
  exact ⟨h.searched j hmem, by simpa using hl⟩

/-- **An arranged list is left alone.** -/
theorem IsArranged.self (h : IsArranged path patch k items sorted) :
    arranged path patch k (some (.arr sorted)) = .ok (some (.arr sorted)) := by
  have hself := h.again sorted [] rfl h.kept (fun j hj => absurd hj List.not_mem_nil)
  rwa [List.append_nil] at hself

/-- **What was arranged is left alone**, be it a list or not. -/
theorem arranged_arranged {current held : Option Json}
    (h : arranged path patch k current = .ok held) : arranged path patch k held = .ok held := by
  by_cases hc : ∃ items, current = some (.arr items)
  · obtain ⟨items, rfl⟩ := hc
    obtain ⟨sorted, rfl, hsorted⟩ := exists_isArranged h
    exact hsorted.self
  · have hne : ∀ items, current ≠ some (.arr items) := fun items hi => hc ⟨items, hi⟩
    rw [arranged_of_not_arr hne] at h
    obtain rfl := Except.ok.inj h
    exact arranged_of_not_arr hne

end Patch
end Rollout
