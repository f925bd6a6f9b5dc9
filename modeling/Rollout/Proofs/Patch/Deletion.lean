import Rollout.Proofs.Patch.Idempotence

/-!
# Elements that a patch deletes

An element with `$patch: delete` takes out of a keyed list the first element with its
merge-key value, and no other. The other elements of the patch have other values and
leave that value alone (`Patch.Spares`), so that a list is left without the value if it
held it once, and only then (`Patch.deletion_takes_out_the_first`). Lists that hold a
value twice are common: a port number is listed once for each protocol.

Two things besides can keep the value in the list. A list that the patch replaces takes
no part in this: its elements are taken over as they stand, and with them the one that
deletes, which only loses its directive. And merge-key values that are maps or lists are
merged like any others, so that an element may come to hold a value that no element of
the patch has.
-/

namespace Rollout
namespace Patch

open Json (WellFormed)

/-! ## Values -/

variable {path key : Text} {u v : Json} {element : Fields Json}
  {items items' patch : List Json}

theorem eqv_of_container {w : Json} (hw : identifies w = false) (hv : identifies v = true) :
    w.eqv v = false := by
  cases w with
  | arr xs => cases v <;> first | rfl | cases hv
  | obj fs => cases v <;> first | rfl | cases hv
  | _ => cases hw

theorem null_eqv (hv : v ≠ .null) : Json.eqv .null v = false := by
  cases v <;> first | rfl | exact absurd rfl hv

/-- **A scalar that a patch gives a field** is what the field holds, and a null leaves
nothing there. -/
theorem getD_of_mergedValue {k : Text} {current held : Option Json} (hu : identifies u = true)
    (h : mergedValue path k current u = .ok held) : held.getD .null = u := by
  have hscalar : (mergedValue path k current u = do scalarAt path current; return some u) →
      held.getD .null = u := by
    intro hm
    obtain ⟨_, -, hheld⟩ := Outcome.bind_eq_ok_iff.mp (hm.symm.trans h)
    obtain rfl := Except.ok.inj hheld
    rfl
  cases u with
  | null =>
    obtain rfl := Except.ok.inj h
    rfl
  | bool b => exact hscalar rfl
  | int i => exact hscalar rfl
  | float x => exact hscalar rfl
  | str s => exact hscalar rfl
  | arr xs => cases hu
  | obj map => cases hu

/-- **A container that a patch gives a field** is merged into a container, if anything is
left. -/
theorem identifies_of_mergedValue {k : Text} {current held : Option Json} {w : Json}
    (hu : identifies u = false) (h : mergedValue path k current u = .ok held)
    (hw : held = some w) : identifies w = false := by
  cases u with
  | obj map =>
    rw [mergedValue] at h
    obtain ⟨_, -, h⟩ := Outcome.bind_eq_ok_iff.mp h
    obtain ⟨result?, -, h⟩ := Outcome.bind_eq_ok_iff.mp h
    obtain rfl := Except.ok.inj h
    obtain ⟨fs, -, rfl⟩ := Option.map_eq_some_iff.mp hw
    rfl
  | arr xs =>
    rw [mergedValue] at h
    obtain ⟨_, -, h⟩ := Outcome.bind_eq_ok_iff.mp h
    obtain ⟨result, -, h⟩ := Outcome.bind_eq_ok_iff.mp h
    obtain rfl := Option.some.inj ((Except.ok.inj h).trans hw)
    rfl
  | _ => cases hu

/-! ## Elements with other values -/

/-- **An element of a patch spares a value**: its merge key has another, it does not
replace the list, and not both values are containers. -/
structure Spares (key : Text) (v e : Json) : Prop where
  other : isNamed key v e = false
  merges : hasMode "replace" e = false
  scalar : identifies v = true ∨ (keyOf? key e).all identifies = true

/-- **What was merged with an element that spares a value** does not have it. -/
theorem Spares.isNamed_of_merged (h : Spares key v (.obj element))
    (he : WellFormed (.obj element)) (hkey : isDirective key = false) (hv : v ≠ .null)
    (hu : Fields.get? element key = some u) {place : Text} {base result : Fields Json}
    (hm : merged place base element = .ok (some result)) :
    isNamed key v (.obj result) = false := by
  obtain ⟨current, held, hheld, harr⟩ := exists_mergedValue_of_merged h.merges he hkey hu hm
  show Json.eqv ((Fields.get? result key).getD .null) v = false
  cases hid : identifies u with
  | true =>
    have hscalar := getD_of_mergedValue hid hheld
    have hnot : ∀ xs, held ≠ some (.arr xs) := by
      rintro xs rfl
      rw [← hscalar] at hid
      cases hid
    rw [arranged_of_not_arr hnot] at harr
    rw [← Except.ok.inj harr, hscalar]
    have hother := h.other
    rwa [isNamed, Fields.getD, hu] at hother
  | false =>
    have hvid : identifies v = true := by
      refine h.scalar.resolve_right fun hall => ?_
      rw [show keyOf? key (.obj element) = some u from hu] at hall
      exact Bool.eq_false_iff.mp hid hall
    cases hr : Fields.get? result key with
    | none => exact null_eqv hv
    | some w =>
      refine eqv_of_container ?_ hvid
      by_cases harray : ∃ xs, held = some (.arr xs)
      · obtain ⟨xs, rfl⟩ := harray
        obtain ⟨sorted, hsorted, -⟩ := exists_isArranged harr
        cases hr.symm.trans hsorted
        rfl
      · rw [arranged_of_not_arr fun xs hxs => harray ⟨xs, hxs⟩, hr] at harr
        exact identifies_of_mergedValue hid hheld (Except.ok.inj harr)

/-- **An element that spares a value** leaves the elements that have it alone. -/
theorem Spares.named_of_intoList (h : Spares key v (.obj element))
    (he : WellFormed (.obj element)) (hkey : isDirective key = false) (hv : v ≠ .null)
    (hw : WellFormed v) (hitems : ∀ x ∈ items, WellFormed x)
    (hinto : intoList path key items element (fun place base => merged place base element)
      = .ok items') : named key v items' = named key v items := by
  cases hu : Fields.get? element key with
  | none =>
    unfold intoList at hinto
    rw [hu] at hinto
    cases hinto
  | some u =>
    refine named_of_intoList_of_not hu (fun fs hmem hfound => ?_)
      (fun _ _ _ => h.isNamed_of_merged he hkey hv hu) hinto
    -- what has both values would make them equal
    refine Bool.eq_false_iff.mpr fun hnamed => Bool.eq_false_iff.mp h.other ?_
    have ha : WellFormed (Fields.getD fs key .null) := by
      rw [Fields.getD]
      cases hg : Fields.get? fs key with
      | none => rfl
      | some a => exact (hitems _ hmem).get? hg
    rw [isNamed] at hfound hnamed ⊢
    rw [Fields.getD, hu]
    exact Json.eqv_trans (he.get? hu) ha hw (Json.eqv_symm ha (he.get? hu) hfound) hnamed

/-- **Elements that spare a value** leave the elements that have it alone, all of them. -/
theorem named_of_mergedElements_of_spares (hpatch : ∀ e ∈ patch, WellFormed e)
    (hs : ∀ e ∈ patch, Spares key v e) (hkey : isDirective key = false) (hv : v ≠ .null)
    (hw : WellFormed v) (hitems : ∀ x ∈ items, WellFormed x)
    (h : mergedElements path key items patch = .ok items') :
    named key v items' = named key v items ∧ ∀ x ∈ items', WellFormed x := by
  induction patch generalizing items with
  | nil =>
    rw [mergedElements] at h
    cases h
    exact ⟨rfl, hitems⟩
  | cons e patch ih =>
    obtain ⟨he, hrest⟩ := List.forall_mem_cons.mp hpatch
    obtain ⟨hs₀, hspares⟩ := List.forall_mem_cons.mp hs
    cases e with
    | obj element =>
      rw [mergedElements] at h
      obtain ⟨next, hnext, h⟩ := Outcome.bind_eq_ok_iff.mp h
      obtain ⟨hnamed, hwell⟩ := ih hrest hspares (wellFormed_of_intoList he hitems hnext) h
      exact ⟨hnamed.trans (hs₀.named_of_intoList he hkey hv hw hitems hnext), hwell⟩
    | _ =>
      rw [mergedElements] at h
      · exact ih hrest hspares hitems h
      · intro _ hobject
        cases hobject

/-! ## The element that deletes -/

/-- **An element that deletes takes out the first** of those with its value. -/
theorem named_of_intoList_of_deletes {merge : Text → Fields Json → Outcome (Option (Fields Json))}
    (hkey : Fields.get? element key = some v) (hd : hasMode "delete" (.obj element) = true)
    (h : intoList path key items element merge = .ok items') :
    named key v items' = (named key v items).tail := by
  obtain ⟨pre, found?, post, hcut⟩ := exists_isCut key v items
  rw [intoList_of_isCut hkey hcut, replacement, if_pos hd] at h
  obtain rfl := Except.ok.inj h
  have hpre : named key v pre = [] :=
    List.filter_eq_nil_iff.mpr fun x hx => Bool.eq_false_iff.mp (hcut.before x hx)
  rw [hcut.parts, named_append, named_append, named_append, named_append, hpre]
  cases found? with
  | none =>
    rw [hcut.behind rfl]
    rfl
  | some fs =>
    have hfound : named key v [Json.obj fs] = [Json.obj fs] :=
      List.filter_eq_self.mpr fun x hx => List.mem_singleton.mp hx ▸ hcut.found fs rfl
    rw [Option.map_some, Option.toList_some, hfound]
    rfl

/-- A patch's elements are merged one after the other. -/
theorem mergedElements_append (xs ys : List Json) :
    mergedElements path key items (xs ++ ys)
      = mergedElements path key items xs >>= fun items => mergedElements path key items ys := by
  induction xs generalizing items with
  | nil => rfl
  | cons e xs ih =>
    cases e with
    | obj element =>
      rw [List.cons_append, mergedElements, mergedElements, bind_assoc]
      exact congrArg _ (funext fun next => ih)
    | _ =>
      rw [List.cons_append, mergedElements, mergedElements]
      · exact ih
      all_goals
        intro _ hobject
        cases hobject

/-- **A patch that deletes a value takes out the first element with it**, if its other
elements spare the value. -/
theorem named_of_mergedElements_of_deletes {before behind : List Json}
    (hpatch : ∀ e ∈ before ++ .obj element :: behind, WellFormed e)
    (hs : ∀ e ∈ before ++ behind, Spares key v e) (hkey : isDirective key = false)
    (hv : v ≠ .null) (hget : Fields.get? element key = some v)
    (hd : hasMode "delete" (.obj element) = true) (hitems : ∀ x ∈ items, WellFormed x)
    (h : mergedElements path key items (before ++ .obj element :: behind) = .ok items') :
    named key v items' = (named key v items).tail := by
  obtain ⟨hbefore, hrest⟩ := List.forall_mem_append.mp hpatch
  obtain ⟨helement, hbehind⟩ := List.forall_mem_cons.mp hrest
  obtain ⟨hs, hs'⟩ := List.forall_mem_append.mp hs
  have hw : WellFormed v := helement.get? hget
  rw [mergedElements_append] at h
  obtain ⟨here, hhere, h⟩ := Outcome.bind_eq_ok_iff.mp h
  rw [mergedElements] at h
  obtain ⟨next, hnext, h⟩ := Outcome.bind_eq_ok_iff.mp h
  obtain ⟨hsame, hwell⟩ :=
    named_of_mergedElements_of_spares hbefore hs hkey hv hw hitems hhere
  obtain ⟨hsame', -⟩ := named_of_mergedElements_of_spares hbehind hs' hkey hv hw
    (wellFormed_of_intoList helement hwell hnext) h
  calc named key v items' = named key v next := hsame'
    _ = (named key v here).tail := named_of_intoList_of_deletes hget hd hnext
    _ = (named key v items).tail := by rw [hsame]

/-- An element that deletes does not replace. -/
theorem hasMode_replace_of_delete {e : Json} (h : hasMode "delete" e = true) :
    hasMode "replace" e = false := by
  unfold hasMode at h ⊢
  split
  · split
    · rename_i word hword
      simp only [hword, beq_iff_eq] at h
      subst h
      decide
    · rfl
  · rfl

/-! ## A list that is replaced -/

theorem get?_strippedFields (fs : Fields Json) {k : Text} (hk : isDirective k = false) :
    Fields.get? (Json.strippedFields fs) k = (Fields.get? fs k).map Json.stripped := by
  induction fs with
  | nil => rfl
  | cons f fs ih =>
    obtain ⟨k', w⟩ := f
    rw [Json.strippedFields, Fields.get?_cons]
    by_cases hkk : k' = k
    · subst hkk
      rw [if_neg (Bool.eq_false_iff.mp hk), Fields.get?_cons, if_pos rfl, if_pos rfl]
      rfl
    · rw [if_neg hkk, ← ih]
      split
      · rfl
      · rw [Fields.get?_cons, if_neg hkk]

/-- An element that holds a field is not bare. -/
theorem isBareMode_eq_false (hkey : isDirective key = false)
    (hv : Fields.get? element key = some v) : isBareMode (.obj element) = false := by
  unfold isBareMode
  split
  · rename_i k w heq
    obtain rfl := Json.obj.inj heq
    obtain rfl : k = key := by
      by_contra hk
      rw [Fields.get?_cons, if_neg hk] at hv
      cases hv
    refine beq_eq_false_iff_ne.mpr ?_
    rintro rfl
    cases hkey
  · rfl

/-- An element with a merge key is taken over. -/
theorem mem_strippedItems (hkey : isDirective key = false)
    (hv : Fields.get? element key = some v) (hmem : .obj element ∈ patch) :
    .obj (Json.strippedFields element) ∈ Json.strippedItems patch := by
  rw [Json.strippedItems_eq]
  refine List.mem_map.mpr ⟨.obj element, List.mem_filter.mpr ⟨hmem, ?_⟩, rfl⟩
  rw [isBareMode_eq_false hkey hv]
  rfl

/-- **An element that deletes takes out of a keyed list the first with its merge-key
value.** No other element of the patch has the value. If none replaces the list, and none
holds a container at the merge key while the value is a container too, then the list is
left with the other elements that had the value, which are none if it had one at most.
If one replaces the list, the element that deletes is in the list itself. -/
theorem deletion_takes_out_the_first {field key path : Text}
    {base before behind result : List Json} {element : Fields Json} {v : Json}
    (hk : mergeKey? field = some key) (hbase : ∀ x ∈ base, WellFormed x)
    (hpatch : ∀ e ∈ before ++ .obj element :: behind, WellFormed e)
    (hkey : Fields.get? element key = some v) (hv : v ≠ .null)
    (hd : hasMode "delete" (.obj element) = true)
    (honly : ∀ e ∈ before ++ behind, isNamed key v e = false)
    (h : listedBy path field base (before ++ .obj element :: behind) = .ok result) :
    ((before ++ behind).any (hasMode "replace") = false →
      (∀ e ∈ before ++ behind, identifies v = true ∨ (keyOf? key e).all identifies = true) →
      named key v result = (named key v base).tail
        ∧ ((∀ x ∈ result, isNamed key v x = false) ↔ (named key v base).length ≤ 1))
      ∧ ((before ++ behind).any (hasMode "replace") = true →
        ∃ x ∈ result, keyOf? key x = some v.stripped) := by
  have hdirective := isDirective_mergeKey hk
  have hany : (before ++ .obj element :: behind).any (hasMode "replace")
      = (before ++ behind).any (hasMode "replace") := by
    rw [List.any_append, List.any_cons, hasMode_replace_of_delete hd, Bool.false_or,
      List.any_append]
  rw [listedBy, listed, hany] at h
  refine ⟨fun hr hscalar => ?_, fun hr => ?_⟩
  · have hspares : ∀ e ∈ before ++ behind, Spares key v e := fun e he =>
      ⟨honly e he, Bool.eq_false_iff.mpr (List.any_eq_false.mp hr e he), hscalar e he⟩
    rw [hr, if_neg Bool.false_ne_true, hk] at h
    simp only at h
    split at h
    · have htail :=
        named_of_mergedElements_of_deletes hpatch hspares hdirective hv hkey hd hbase h
      refine ⟨htail, ?_⟩
      calc (∀ x ∈ result, isNamed key v x = false)
          ↔ named key v result = [] := by simp [named]
        _ ↔ (named key v base).length ≤ 1 := by
          rw [htail, ← List.length_eq_zero_iff, List.length_tail]
          omega
    · cases h
  · rw [hr, if_pos rfl] at h
    obtain rfl := Except.ok.inj h
    have hmem : .obj element ∈ before ++ .obj element :: behind :=
      List.mem_append_right _ List.mem_cons_self
    refine ⟨_, mem_strippedItems hdirective hkey hmem, ?_⟩
    rw [keyOf?, get?_strippedFields element hdirective, hkey]
    rfl

/-- Ports of which one number is listed for two protocols. -/
def dnsPorts : List Json :=
  [.obj [("containerPort", .int 53), ("protocol", .str "TCP")],
   .obj [("containerPort", .int 53), ("protocol", .str "UDP")],
   .obj [("containerPort", .int 80)]]

/-- The element that deletes a port by its number. -/
def withoutDns : Fields Json := [("containerPort", .int 53), ("$patch", .str "delete")]

theorem deletion_takes_out_the_first_dns :
    ∃ result, listedBy "ports" "ports" dnsPorts
        ([.obj [("containerPort", .int 80), ("name", .str "web")]]
          ++ .obj withoutDns :: [.obj [("containerPort", .int 443)]]) = .ok result
      ∧ named "containerPort" (.int 53) result
        = (named "containerPort" (.int 53) dnsPorts).tail := by
  have hkey : mergeKey? "ports" = some "containerPort" := rfl
  have hrun : listedBy "ports" "ports" dnsPorts
      ([.obj [("containerPort", .int 80), ("name", .str "web")]]
        ++ .obj withoutDns :: [.obj [("containerPort", .int 443)]])
      = .ok [.obj [("containerPort", .int 53), ("protocol", .str "UDP")],
        .obj [("containerPort", .int 80), ("name", .str "web")],
        .obj [("containerPort", .int 443)]] := by rfl
  have hresult := deletion_takes_out_the_first hkey (by decide) (by decide)
    (show Fields.get? withoutDns "containerPort" = some (.int 53) from rfl) nofun (by decide)
    (by decide) hrun
  exact ⟨_, hrun, (hresult.1 (by decide) (by decide)).1⟩

/-- **An element that is deleted can be in the list afterwards**, if the list held its
value twice. -/
theorem exists_deleted_port_left :
    ∃ result, listedBy "ports" "ports" dnsPorts [.obj withoutDns] = .ok result
      ∧ ∃ x ∈ result, keyOf? "containerPort" x = some (.int 53) :=
  ⟨[.obj [("containerPort", .int 53), ("protocol", .str "UDP")],
    .obj [("containerPort", .int 80)]], by rfl, _, List.mem_cons_self, rfl⟩

end Patch
end Rollout
