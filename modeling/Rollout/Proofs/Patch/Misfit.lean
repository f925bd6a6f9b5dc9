import Rollout.Proofs.Json.RoundTrip
import Rollout.Proofs.Patch.Stack

/-!
# Patches that do not fit

Whatever a patch holds, a merge is to end with a result or to say what does not fit. Where a
directive is read its value is looked at first, and a value of another shape than expected is
refused with the path of the map. There is one directive of which this is not true: what a
removal names is searched as it stands. A number cannot be searched, nor can a text be searched
for a map, and a search that cannot be made is no patch's error but fails on a value that has
not the shape taken for granted (`Patch.mergedObject_removal`).

On a stack with an end there is one failure more that is no patch's error, the end itself. It is
met by copying, at half the depth at which documents are no longer read, and nobody looks out for
it there (`Patch.mergedObjectWithin_of_deep`).

A merge fails with a patch's error in all cases but these two
(`Patch.patch_error_unless_misread_or_deep`). The proof goes through the merge with what a failure
may be as a parameter, and asks for the failure of shape to be among them only where a removal
is carried out. An order needs no such exception, since what cannot be ordered is refused.
-/

namespace Rollout

open Outcome (FailsOnly failsOnly_ok failsOnly_error failsOnly_foldlM failsOnly_mapM)

/-- **A failure that is told as a patch's error.** -/
def Failure.IsPatchError (e : Failure) : Prop :=
  ∃ cause, e = .rollout (.patch cause)

namespace Patch

open Json (everywhere everywhere_arr_iff everywhere_obj_iff)

/-- A value that is a list. -/
def isList : Json → Bool
  | .arr _ => true
  | _ => false

/-- What the removals of this part of a patch take out is listed. -/
def removesLists : Json → Bool
  | .obj fs => (directivesOf removalStem fs).all fun d => isList d.2
  | _ => true

variable {P : Failure → Prop}

/-- A merge may fail with any patch's error. -/
def IsMisfit (P : Failure → Prop) : Prop :=
  ∀ cause, P (.rollout (.patch cause))

theorem IsMisfit.refuse (hP : IsMisfit P) (cause : PatchError) {α : Type} :
    FailsOnly P (refuse cause : Outcome α) :=
  failsOnly_error (hP cause)

/-! ## Directives -/

theorem failsOnly_mode (hP : IsMisfit P) (path : Text) (patch : Fields Json) :
    FailsOnly P (mode path patch) := by
  unfold mode
  split
  · exact failsOnly_ok _
  · exact failsOnly_ok _
  · split_ifs
    · exact failsOnly_ok _
    · exact failsOnly_ok _
    · exact hP.refuse _
  · exact hP.refuse _

theorem failsOnly_retained? (hP : IsMisfit P) (path : Text) (patch : Fields Json) :
    FailsOnly P (retained? path patch) := by
  unfold retained?
  split
  · exact failsOnly_ok _
  · exact failsOnly_ok _
  · split
    · exact failsOnly_ok _
    · exact hP.refuse _
  · exact hP.refuse _

theorem failsOnly_listDirectives (hP : IsMisfit P) (path : Text) (patch : Fields Json) :
    FailsOnly P (listDirectives path patch) := by
  refine failsOnly_foldlM (fun ds f _ => ?_) _
  unfold addListDirective
  split
  · exact failsOnly_ok _
  · split
    · exact failsOnly_ok _
    · split
      · exact failsOnly_ok _
      · exact hP.refuse _

/-- **An order is carried out or refused**, whatever it holds. -/
theorem failsOnly_reorder (hP : IsMisfit P) (path : Text) (result : Fields Json) (field : Text)
    (order : Json) : FailsOnly P (reorder path result field order) := by
  unfold reorder
  split
  · refine FailsOnly.andThen ?_ _
    unfold inOrder
    split
    · simp only
      split
      · exact failsOnly_ok _
      · exact hP.refuse _
    · exact hP.refuse _
  · exact failsOnly_ok _

/-- A list is searched, whatever is in it; anything else may not be what is searched. -/
theorem failsOnly_withoutListed {values : Json} (h : P .malformed ∨ isList values = true)
    (items : List Json) : FailsOnly P (withoutListed items values) := by
  rcases h with hP | hlist
  · unfold withoutListed
    split
    · exact failsOnly_ok _
    · exact failsOnly_ok _
    · split
      · exact failsOnly_ok _
      · exact failsOnly_error hP
    · refine (failsOnly_mapM fun j _ => ?_).andThen _
      split
      · exact failsOnly_ok _
      · exact failsOnly_error hP
    · exact failsOnly_error hP
  · cases values with
    | arr listed => cases items <;> exact failsOnly_ok _
    | _ => cases hlist

/-- A removal that cannot tell of an element whether it names it has not the shape taken for
granted. -/
theorem withoutListed_eq_malformed {items : List Json} {x : Json} (hx : x ∈ items) {values : Json}
    (h : isSearched (some values) x = false) : withoutListed items values = .error .malformed := by
  cases hkept : withoutListed items values with
  | ok kept =>
    rw [(withoutListed_eq_ok hkept).1 x hx] at h
    cases h
  | error e =>
    have he := failsOnly_withoutListed (P := (· = .malformed)) (.inl rfl) items e hkept
    exact congrArg Except.error he

/-- **A removal is carried out if it names a list.** -/
theorem failsOnly_remove {values : Json} (h : P .malformed ∨ isList values = true)
    (result : Fields Json) (field : Text) : FailsOnly P (remove result field values) := by
  unfold remove
  split
  · exact (failsOnly_withoutListed h _).andThen _
  · exact failsOnly_ok _

/-! ## What stands at a field -/

theorem failsOnly_mapAt (hP : IsMisfit P) (path : Text) (current : Option Json) :
    FailsOnly P (mapAt path current) := by
  unfold mapAt
  split <;> first | exact failsOnly_ok _ | exact hP.refuse _

theorem failsOnly_listAt (hP : IsMisfit P) (path : Text) (current : Option Json) :
    FailsOnly P (listAt path current) := by
  unfold listAt
  split <;> first | exact failsOnly_ok _ | exact hP.refuse _

theorem failsOnly_scalarAt (hP : IsMisfit P) (path : Text) (current : Option Json) :
    FailsOnly P (scalarAt path current) := by
  unfold scalarAt
  split <;> first | exact failsOnly_ok _ | exact hP.refuse _

/-! ## Maps and lists -/

/-- **A map fails as its fields do**, or in one of its directives. -/
theorem failsOnly_directed (hP : IsMisfit P) {patch : Fields Json}
    (h : P .malformed ∨ removesLists (.obj patch) = true) {path : Text} {base : Fields Json}
    {merge : Fields Json → Outcome (Fields Json)} (hmerge : ∀ kept, FailsOnly P (merge kept)) :
    FailsOnly P (directed path base patch merge) := by
  refine (failsOnly_mode hP path patch).bind fun m _ => ?_
  cases m with
  | replace => exact failsOnly_ok _
  | delete => exact failsOnly_ok _
  | merge =>
    -- the phases behind the fields that are kept, whichever they are
    have hphases : ∀ kept, FailsOnly P (do
        let directives ← listDirectives path patch
        let data ← merge kept
        let reduced ← directives.removals.foldlM (fun r d => remove r d.1 d.2) data
        let result ← directives.orders.foldlM (fun r d => reorder path r d.1 d.2) reduced
        return some result) := by
      intro kept
      refine (failsOnly_listDirectives hP path patch).bind fun ds hds => ?_
      refine (hmerge kept).bind fun data _ => ?_
      have hremovals : ∀ d ∈ ds.removals, P .malformed ∨ isList d.2 = true := by
        intro d hd
        rw [(listDirectives_eq_ok hds).2] at hd
        exact h.imp_right fun hlists => List.all_eq_true.mp hlists d hd
      refine (failsOnly_foldlM (fun fs d hd => failsOnly_remove (hremovals d hd) fs d.1) data).bind
        fun reduced _ => ?_
      exact (failsOnly_foldlM (fun fs d _ => failsOnly_reorder hP path fs d.1 d.2) reduced).andThen
        some
    refine (failsOnly_retained? hP path patch).bind fun names? _ => ?_
    cases names? with
    | none => exact hphases base
    | some names => exact hphases _

/-- **An element fails as the map that is merged into it does**, or for want of its key. -/
theorem failsOnly_intoList (hP : IsMisfit P) (path key : Text) (items : List Json)
    (element : Fields Json) {merge : Text → Fields Json → Outcome (Option (Fields Json))}
    (hmerge : ∀ place base, FailsOnly P (merge place base)) :
    FailsOnly P (intoList path key items element merge) := by
  unfold intoList
  split
  · exact hP.refuse _
  · simp only
    split
    · exact failsOnly_ok _
    · refine (hmerge _ _).bind fun found _ => ?_
      split <;> exact failsOnly_ok _

/-- **A list fails as its elements do**, or for what is no map among them. -/
theorem failsOnly_listed (hP : IsMisfit P) (path field : Text) (base patch : List Json)
    {merge : Text → List Json → Outcome (List Json)}
    (hmerge : ∀ key items, FailsOnly P (merge key items)) :
    FailsOnly P (listed path field base patch merge) := by
  unfold listed
  split
  · exact failsOnly_ok _
  · split
    · exact failsOnly_ok _
    · split
      · exact hmerge _ _
      · exact hP.refuse _

/-! ## Documents -/

/-- **Whatever fails where this part of a patch is merged fails like this.** -/
structure FailsOnlyIn (P : Failure → Prop) (v : Json) : Prop where
  ofObject : ∀ patch, v = .obj patch → ∀ path base, FailsOnly P (merged path base patch)
  ofList : ∀ patch, v = .arr patch → ∀ path key items,
    FailsOnly P (mergedElements path key items patch)

theorem failsOnly_mergedValue (hP : IsMisfit P) {v : Json} (hv : FailsOnlyIn P v)
    (path field : Text) (current : Option Json) :
    FailsOnly P (mergedValue path field current v) := by
  cases v with
  | null => exact failsOnly_ok _
  | obj patch =>
    rw [mergedValue]
    exact (failsOnly_mapAt hP path current).bind fun base _ =>
      (hv.ofObject patch rfl path base).andThen _
  | arr patch =>
    rw [mergedValue]
    exact (failsOnly_listAt hP path current).bind fun base _ =>
      (failsOnly_listed hP path field base patch fun key items =>
        hv.ofList patch rfl path key items).andThen _
  | _ => exact (failsOnly_scalarAt hP path current).andThen _

theorem failsOnly_mergedFields (hP : IsMisfit P) {fs : Fields Json}
    (hfs : ∀ f ∈ fs, FailsOnlyIn P f.2) (path : Text) (result : Fields Json) :
    FailsOnly P (mergedFields path result fs) := by
  induction fs generalizing result with
  | nil => exact failsOnly_ok _
  | cons f fs ih =>
    obtain ⟨k, v⟩ := f
    obtain ⟨hv, hvs⟩ := List.forall_mem_cons.mp hfs
    rw [mergedFields]
    split
    · exact ih hvs result
    · exact (failsOnly_mergedValue hP hv _ _ _).bind fun held _ => ih hvs _

theorem failsOnly_mergedElements (hP : IsMisfit P) {patch : List Json}
    (helements : ∀ x ∈ patch, FailsOnlyIn P x) (path key : Text) (items : List Json) :
    FailsOnly P (mergedElements path key items patch) := by
  induction patch generalizing items with
  | nil => exact failsOnly_ok _
  | cons x patch ih =>
    obtain ⟨hx, hxs⟩ := List.forall_mem_cons.mp helements
    cases x with
    | obj element =>
      rw [mergedElements]
      exact (failsOnly_intoList hP path key items element fun place base =>
        hx.ofObject element rfl place base).bind fun items _ => ih hxs items
    | _ =>
      rw [mergedElements]
      · exact ih hxs items
      · rintro _ ⟨⟩

/-- **Where all removals are listed, a merge fails with a patch's error.** Where they are not,
it may fail as a search in something else does. -/
theorem failsOnlyIn (hP : IsMisfit P) {v : Json}
    (h : P .malformed ∨ everywhere removesLists v = true) : FailsOnlyIn P v := by
  induction v using Json.induction with
  | arr items ih =>
    have hs := fun x hx => ih x hx (h.imp_right fun h => (everywhere_arr_iff.mp h).2 x hx)
    refine ⟨nofun, fun patch heq path key items => ?_⟩
    cases heq
    exact failsOnly_mergedElements hP hs path key items
  | obj fs ih =>
    have hs := fun f hf => ih f hf (h.imp_right fun h => (everywhere_obj_iff.mp h).2 f hf)
    refine ⟨fun patch heq path base => ?_, nofun⟩
    cases heq
    exact failsOnly_directed hP (h.imp_right fun h => (everywhere_obj_iff.mp h).1)
      fun kept => failsOnly_mergedFields hP hs path kept
  | _ => exact ⟨nofun, nofun⟩

theorem failsOnly_mergedObject (hP : IsMisfit P) {patch : Fields Json}
    (h : P .malformed ∨ everywhere removesLists (.obj patch) = true) (base : Fields Json) :
    FailsOnly P (mergedObject base patch) :=
  ((failsOnlyIn hP h).ofObject patch rfl "" base).andThen _

/-- **A removal that cannot tell of an element is not refused**, as when it is a number, a truth
value or null. -/
theorem mergedObject_removal {base : Fields Json} {field : Text} {items : List Json}
    (hheld : Fields.get? base field = some (.arr items)) {x : Json} (hx : x ∈ items)
    {values : Json} (h : isSearched (some values) x = false) :
    mergedObject base [(removalStem ++ field, values)] = .error .malformed := by
  have hmode : mode "" [(removalStem ++ field, values)] = .ok .merge := rfl
  have hnames : retained? "" [(removalStem ++ field, values)] = .ok none := rfl
  have hds : listDirectives "" [(removalStem ++ field, values)] = .ok ⟨[], [(field, values)]⟩ := rfl
  have hfields : mergedFields "" base [(removalStem ++ field, values)] = .ok base := rfl
  have hremove : remove base field values = .error .malformed := by
    rw [remove, hheld]
    show (withoutListed items values >>= _) = _
    rw [withoutListed_eq_malformed hx h]
    rfl
  unfold mergedObject directed
  simp only [hmode, hnames, hds, bind, Except.bind, pure, Except.pure, hfields, List.foldlM_cons,
    hremove]

/-! ## Bytes -/

theorem document_eq_ok_iff {bs : Bytes} {j : Json} :
    document bs = .ok j ↔ Json.decode bs = .ok j := by
  constructor
  · intro h
    unfold document at h
    split at h <;> cases h
    assumption
  · intro h
    rw [document, h]

/-- **Merging bytes is merging what they hold.** -/
theorem mergedBytes_of_decode {bs cs : Bytes} {base patch : Fields Json}
    (hbase : Json.decode bs = .ok (.obj base)) (hpatch : Json.decode cs = .ok (.obj patch)) :
    mergedBytes bs cs = (mergedObject base patch).map fun merged => Json.encode (.obj merged) := by
  rw [mergedBytes, document_eq_ok_iff.mpr hbase, document_eq_ok_iff.mpr hpatch]
  show (mergedObject base patch >>= fun merged => pure (Json.encode (.obj merged))) = _
  cases mergedObject base patch <;> rfl

/-- Bytes that hold no document are refused, unless it is for their depth. -/
theorem failsOnly_document (hP : IsMisfit P) {bs : Bytes} (h : Json.decode bs ≠ .error .tooDeep) :
    FailsOnly P (document bs) := by
  unfold document
  split
  · exact failsOnly_ok _
  · exact hP.refuse _
  · rename_i hdeep
    exact absurd hdeep h

/-- **Merging bytes on a stack** is merging what they hold there. -/
theorem mergedBytesWithin_of_decode (room : Nat) {bs cs : Bytes} {base patch : Fields Json}
    (hbase : Json.decode bs = .ok (.obj base)) (hpatch : Json.decode cs = .ok (.obj patch)) :
    mergedBytesWithin room bs cs
      = (mergedObjectWithin room base patch).map fun merged => Json.encode (.obj merged) := by
  rw [mergedBytesWithin, document_eq_ok_iff.mpr hbase, document_eq_ok_iff.mpr hpatch]
  show (mergedObjectWithin room base patch >>= fun merged => pure (Json.encode (.obj merged))) = _
  cases mergedObjectWithin room base patch <;> rfl

/-- **With more room than a copy takes** bytes are merged as without an end to the stack. -/
theorem mergedBytesWithin_eq {room : Nat} {bs cs : Bytes} {base patch : Fields Json}
    (hbase : Json.decode bs = .ok (.obj base)) (hpatch : Json.decode cs = .ok (.obj patch))
    (h : 2 * max (Json.obj base).depth (Json.obj patch).depth < room) :
    mergedBytesWithin room bs cs = mergedBytes bs cs := by
  rw [mergedBytesWithin_of_decode room hbase hpatch, mergedBytes_of_decode hbase hpatch,
    mergedObjectWithin_eq h]

/-- **An object that is too deep for its copy is not merged**, whatever is to be merged into it. -/
theorem mergedObjectWithin_of_deep {room : Nat} {base patch : Fields Json}
    (hmode : mode "" patch = .ok .merge) (h : room ≤ 2 * (Json.obj base).depth) :
    mergedObjectWithin room base patch = .error .malformed := by
  have hfails : mergedWithin room "" base patch = .error .malformed := by
    cases room with
    | zero => rfl
    | succ left =>
      have hcopied : mapCopied left "" base patch = .error .malformed := by
        rw [mapCopied, hmode]
        exact if_neg (by omega)
      show (mapCopied left "" base patch >>= _) = _
      rw [hcopied]
      rfl
  show (mergedWithin room "" base patch >>= _) = _
  rw [hfails]
  rfl

/-- **What is merged on a stack** is what is merged without its end. -/
theorem exists_of_mergedDocumentWithin {room : Nat} {b p : Json} {merged : Fields Json}
    (h : mergedDocumentWithin room b p = .ok merged) :
    ∃ base patch, b = .obj base ∧ p = .obj patch ∧ mergedObject base patch = .ok merged := by
  unfold mergedDocumentWithin at h
  split at h
  · rename_i base patch
    refine ⟨base, patch, rfl, rfl, ?_⟩
    rcases isWithin_mergedObjectWithin room base patch with hwithin | ⟨-, hfails⟩
    · exact hwithin ▸ h
    · rw [hfails] at h
      cases h
  · cases h

/-- **Where all removals are listed and there is room for the copies**, documents are merged or the
merge fails with a patch's error. -/
theorem failsOnly_mergedDocumentWithin (hP : IsMisfit P) {room : Nat} {b p : Json}
    (h : ∀ base patch, b = .obj base → p = .obj patch → P .malformed
      ∨ everywhere removesLists (.obj patch) = true
        ∧ 2 * max (Json.obj base).depth (Json.obj patch).depth < room) :
    FailsOnly P (mergedDocumentWithin room b p) := by
  unfold mergedDocumentWithin
  split
  · rename_i base patch
    obtain hmalformed | ⟨hlists, hroom⟩ := h base patch rfl rfl
    · rcases isWithin_mergedObjectWithin room base patch with hwithin | ⟨-, hfails⟩
      · exact hwithin ▸ failsOnly_mergedObject hP (.inl hmalformed) base
      · exact hfails ▸ failsOnly_error hmalformed
    · exact mergedObjectWithin_eq hroom ▸ failsOnly_mergedObject hP (.inr hlists) base
  · exact hP.refuse _

/-- **What does not fit is refused.** Bytes that are not too deep to be read are merged, whatever
room there is on the stack, or the merge fails with a patch's error – but for two ways to fail that
are no patch's: a removal lists nothing, or there is not more room than a copy of the deeper
document takes. -/
theorem patch_error_unless_misread_or_deep (room : Nat) (base patch : Bytes)
    (hbase : Json.decode base ≠ .error .tooDeep) (hpatch : Json.decode patch ≠ .error .tooDeep) :
    (∃ fs gs merged, Json.decode base = .ok (.obj fs) ∧ Json.decode patch = .ok (.obj gs)
        ∧ mergedObject fs gs = .ok merged
        ∧ mergedBytesWithin room base patch = .ok (Json.encode (.obj merged)))
      ∨ (∃ e, mergedBytesWithin room base patch = .error e ∧ e.IsPatchError)
      ∨ mergedBytesWithin room base patch = .error .malformed
        ∧ ∃ fs gs, Json.decode base = .ok (.obj fs) ∧ Json.decode patch = .ok (.obj gs)
          ∧ (everywhere removesLists (.obj gs) = false
            ∨ room ≤ 2 * max (Json.obj fs).depth (Json.obj gs).depth) := by
  cases hmerged : mergedBytesWithin room base patch with
  | ok bs =>
    obtain ⟨b, hb, h⟩ := Outcome.bind_eq_ok_iff.mp hmerged
    obtain ⟨p, hp, h⟩ := Outcome.bind_eq_ok_iff.mp h
    obtain ⟨merged, hm, h⟩ := Outcome.bind_eq_ok_iff.mp h
    cases h
    obtain ⟨fs, gs, rfl, rfl, hobject⟩ := exists_of_mergedDocumentWithin hm
    exact .inl ⟨fs, gs, merged, document_eq_ok_iff.mp hb, document_eq_ok_iff.mp hp, hobject, rfl⟩
  | error e =>
    have hP : IsMisfit fun e => e.IsPatchError ∨ e = .malformed
        ∧ ∃ fs gs, Json.decode base = .ok (.obj fs) ∧ Json.decode patch = .ok (.obj gs)
          ∧ (everywhere removesLists (.obj gs) = false
            ∨ room ≤ 2 * max (Json.obj fs).depth (Json.obj gs).depth) :=
      fun cause => .inl ⟨cause, rfl⟩
    refine .inr (Or.imp (fun h => ⟨e, rfl, h⟩) (And.imp_left (congrArg Except.error)) ?_)
    refine FailsOnly.bind (failsOnly_document hP hbase) (fun b hb => ?_) e hmerged
    refine (failsOnly_document hP hpatch).bind fun p hp => FailsOnly.andThen ?_ _
    refine failsOnly_mergedDocumentWithin hP fun fs gs hfs hgs => ?_
    subst hfs hgs
    by_cases hwell : everywhere removesLists (.obj gs) = true
        ∧ 2 * max (Json.obj fs).depth (Json.obj gs).depth < room
    · exact .inr hwell
    · rw [not_and_or, Bool.not_eq_true, Nat.not_lt] at hwell
      exact .inl (.inr ⟨rfl, fs, gs, document_eq_ok_iff.mp hb, document_eq_ok_iff.mp hp, hwell⟩)

/-! ### A number that is not listed -/

/-- An object with a finalizer. -/
def heldFinalizers : Fields Json := [("finalizers", .arr [.str "a"])]

/-- A patch that is to take a number out of its finalizers, and does not list it. -/
def misreadRemoval : Fields Json := [("$deleteFromPrimitiveList/finalizers", .int 5)]

theorem decode_heldFinalizers :
    Json.decode (Json.encode (.obj heldFinalizers)) = .ok (.obj heldFinalizers) :=
  Json.decode_encode ⟨by decide, by decide⟩

theorem decode_misreadRemoval :
    Json.decode (Json.encode (.obj misreadRemoval)) = .ok (.obj misreadRemoval) :=
  Json.decode_encode ⟨by decide, by decide⟩

theorem mergedBytesWithin_misreadRemoval :
    mergedBytesWithin maxDepth (Json.encode (.obj heldFinalizers))
      (Json.encode (.obj misreadRemoval)) = .error .malformed := by
  have hheld : Fields.get? heldFinalizers "finalizers" = some (.arr [.str "a"]) := rfl
  rw [mergedBytesWithin_eq decode_heldFinalizers decode_misreadRemoval (by decide),
    mergedBytes_of_decode decode_heldFinalizers decode_misreadRemoval]
  exact congrArg _ (mergedObject_removal hheld List.mem_cons_self rfl)

/-! ### Lists in lists -/

/-- Empty lists in lists. -/
def nestedLists : Nat → Json
  | 0 => .arr []
  | n + 1 => .arr [nestedLists n]

theorem depth_nestedLists (n : Nat) : (nestedLists n).depth = n + 1 := by
  induction n with
  | zero => rfl
  | succ n ih =>
    rw [nestedLists, Json.depth, Json.depthOfItems, ih]
    rfl

theorem everywhere_nestedLists {p : Json → Bool} (hp : ∀ items, p (.arr items) = true) (n : Nat) :
    everywhere p (nestedLists n) = true := by
  induction n with
  | zero => exact everywhere_arr_iff.mpr ⟨hp _, nofun⟩
  | succ n ih => exact everywhere_arr_iff.mpr ⟨hp _, List.forall_mem_singleton.mpr ih⟩

/-- An object that can be read and not copied. -/
def heldLists : Fields Json := [("a", nestedLists 599)]

theorem depth_heldLists : (Json.obj heldLists).depth = 601 := by
  rw [heldLists, Json.depth, Json.depthOfFields, depth_nestedLists]
  rfl

theorem decode_heldLists : Json.decode (Json.encode (.obj heldLists)) = .ok (.obj heldLists) := by
  refine Json.decode_encode ⟨everywhere_obj_iff.mpr ⟨by decide, ?_⟩, ?_⟩
  · exact List.forall_mem_singleton.mpr (everywhere_nestedLists (fun _ => rfl) 599)
  · rw [depth_heldLists]
    decide

theorem decode_nothing : Json.decode (Json.encode (.obj [])) = .ok (.obj []) :=
  Json.decode_encode ⟨by decide, by decide⟩

theorem mergedBytesWithin_heldLists :
    mergedBytesWithin maxDepth (Json.encode (.obj heldLists)) (Json.encode (.obj []))
      = .error .malformed := by
  rw [mergedBytesWithin_of_decode maxDepth decode_heldLists decode_nothing,
    mergedObjectWithin_of_deep rfl (by rw [depth_heldLists]; decide)]
  rfl

/-- **A number that is not listed is misread**, and its removal fails with no patch's error. So does
a merge of nothing into lists that are too deep. -/
theorem patch_error_unless_misread_or_deep_finalizers :
    (mergedBytesWithin maxDepth (Json.encode (.obj heldFinalizers))
          (Json.encode (.obj misreadRemoval)) = .error .malformed
        ∧ everywhere removesLists (.obj misreadRemoval) = false)
      ∧ mergedBytesWithin maxDepth (Json.encode (.obj heldLists)) (Json.encode (.obj []))
          = .error .malformed
        ∧ maxDepth ≤ 2 * max (Json.obj heldLists).depth (Json.obj []).depth := by
  refine ⟨⟨mergedBytesWithin_misreadRemoval, ?_⟩, mergedBytesWithin_heldLists, ?_⟩
  · rcases patch_error_unless_misread_or_deep maxDepth (Json.encode (.obj heldFinalizers))
      (Json.encode (.obj misreadRemoval)) (decode_heldFinalizers ▸ nofun)
      (decode_misreadRemoval ▸ nofun) with
      ⟨_, _, _, -, -, -, hmerged⟩ | ⟨e, he, cause, rfl⟩ | ⟨-, fs, gs, hfs, hgs, hwhy⟩
    · rw [mergedBytesWithin_misreadRemoval] at hmerged
      cases hmerged
    · rw [mergedBytesWithin_misreadRemoval] at he
      cases he
    · cases decode_heldFinalizers.symm.trans hfs
      cases decode_misreadRemoval.symm.trans hgs
      exact hwhy.resolve_right (by decide)
  · rcases patch_error_unless_misread_or_deep maxDepth (Json.encode (.obj heldLists))
      (Json.encode (.obj [])) (decode_heldLists ▸ nofun) (decode_nothing ▸ nofun) with
      ⟨_, _, _, -, -, -, hmerged⟩ | ⟨e, he, cause, rfl⟩ | ⟨-, fs, gs, hfs, hgs, hwhy⟩
    · rw [mergedBytesWithin_heldLists] at hmerged
      cases hmerged
    · rw [mergedBytesWithin_heldLists] at he
      cases he
    · cases decode_heldLists.symm.trans hfs
      cases decode_nothing.symm.trans hgs
      exact hwhy.resolve_left (by decide)

/-- **Not every misfit is refused.** -/
theorem exists_misfit_not_refused :
    ¬∀ base patch : Bytes,
      Json.decode base ≠ .error .tooDeep → Json.decode patch ≠ .error .tooDeep →
        ∀ e, mergedBytesWithin maxDepth base patch = .error e → e.IsPatchError := by
  intro h
  obtain ⟨cause, hcause⟩ := h _ _ (decode_heldFinalizers ▸ nofun) (decode_misreadRemoval ▸ nofun)
    _ mergedBytesWithin_misreadRemoval
  cases hcause

end Patch
end Rollout
