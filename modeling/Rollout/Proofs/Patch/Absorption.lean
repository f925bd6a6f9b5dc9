import Rollout.Proofs.Patch.KeyedList
import Rollout.Proofs.Patch.WellFormed

/-!
# A keyed list that a patch was merged into

A patch can be merged into a keyed list again without effect if the list shows the
effect of each of its elements: none has the name of an element that deletes, and
otherwise exactly one has the name, into which the element can be merged again without
effect (`Patch.IsAbsorbed`). Whether an element is absorbed is a matter of its own name
alone, so that what the others do before and after it does not spoil it.

This needs names that tell the elements apart, in the list (`Patch.hasUniqueKeys`) as in
the patch (`Patch.hasNamedElements`).
-/

namespace Rollout
namespace Patch

open Json (WellFormed Alike everywhere)

/-! ## What is asked of objects and patches -/

/-- What an element holds at the merge key. -/
def keyOf? (key : Text) : Json → Option Json
  | .obj fs => Fields.get? fs key
  | _ => none

/-- Two elements share a merge-key value. -/
def shareKey (key : Text) (a b : Json) : Bool :=
  match keyOf? key a, keyOf? key b with
  | some v, some w => v.eqv w
  | _, _ => false

theorem shareKey_iff {key : Text} {a b : Json} : shareKey key a b = true
    ↔ ∃ v w, keyOf? key a = some v ∧ keyOf? key b = some w ∧ v.eqv w = true := by
  unfold shareKey
  cases keyOf? key a <;> cases keyOf? key b <;> simp

theorem wellFormed_of_keyOf? {key : Text} {x v : Json} (hx : WellFormed x)
    (h : keyOf? key x = some v) : WellFormed v := by
  cases x with
  | obj fs => exact hx.get? h
  | _ => cases h

/-- No two elements of a list share a merge-key value. -/
def keysDiffer (key : Text) (items : List Json) : Bool :=
  decide (items.Pairwise (fun a b => shareKey key a b = false))

/-- **No two elements of a keyed list share a merge-key value**, in the lists of one
object. -/
def hasUniqueKeys : Json → Bool
  | .obj fs => fs.all fun f =>
      match mergeKey? f.1, f.2 with
      | some key, .arr items => keysDiffer key items
      | _, _ => true
  | _ => true

/-- **The elements of a keyed list carry names that are pairwise distinct**, in the
lists of one patch's map that do not replace. -/
def hasNamedElements : Json → Bool
  | .obj fs => fs.all fun f =>
      match mergeKey? f.1, f.2 with
      | some key, .arr items => items.any (hasMode "replace")
          || (items.all (fun x => (keyOf? key x).any isName) && keysDiffer key items)
      | _, _ => true
  | _ => true

/-! ## An element of a patch -/

/-- A patch of one map that has no effect a second time. -/
def IsIdempotent (patch : Fields Json) : Prop :=
  ∀ path base result?, WellFormed (.obj base) → everywhere hasUniqueKeys (.obj base) = true →
    merged path base patch = .ok result? →
    ∃ again?, merged path (result?.getD []) patch = .ok again?
      ∧ Alike (again?.map .obj) (result?.map .obj)

/-- **An element of a patch with a name**, that is merged or deletes. -/
structure IsElement (key : Text) (w : Json) (element : Fields Json) : Prop where
  key : Fields.get? element key = some w
  name : isName w = true
  merges : hasMode "replace" (.obj element) = false
  wellFormed : WellFormed (.obj element)

/-- A merge key is a field, not a directive. -/
theorem isDirective_mergeKey {field key : Text} (h : mergeKey? field = some key) :
    isDirective key = false := by
  have hmem : ∀ (ps : List (Text × Text)), ps.all (fun p => !isDirective p.2) = true →
      ps.lookup field = some key → isDirective key = false := by
    intro ps
    induction ps with
    | nil => exact fun _ h => by cases h
    | cons p ps ih =>
      intro hall h
      obtain ⟨hp, hall⟩ := Bool.and_eq_true_iff.mp hall
      rw [List.lookup_cons] at h
      split at h
      · obtain rfl := Option.some.inj h
        exact Bool.not_eq_true' _ ▸ hp
      · exact ih hall h
  exact hmem mergeKeys (by decide) h

/-- **A map is merged unless it says otherwise.** -/
theorem mode_eq_ok {path : Text} {patch : Fields Json} {m : Mode} (h : mode path patch = .ok m) :
    m = .merge ∨ (m = .replace ∧ hasMode "replace" (.obj patch) = true)
      ∨ (m = .delete ∧ hasMode "delete" (.obj patch) = true) := by
  unfold mode at h
  split at h
  · exact .inl (Except.ok.inj h).symm
  · exact .inl (Except.ok.inj h).symm
  · rename_i word hword
    split at h
    · rename_i heq
      exact .inr (.inl ⟨(Except.ok.inj h).symm, by simp only [hasMode, hword, heq, beq_self_eq_true]⟩)
    · split at h
      · rename_i heq
        exact .inr (.inr ⟨(Except.ok.inj h).symm,
          by simp only [hasMode, hword, heq, beq_self_eq_true]⟩)
      · cases h
  · cases h

/-- **A field that the patch of a map gives a value** holds what was made of that value. -/
theorem exists_mergedValue_of_merged {place k : Text} {base patch result : Fields Json} {v : Json}
    (hr : hasMode "replace" (.obj patch) = false) (hpatch : WellFormed (.obj patch))
    (hk : isDirective k = false) (hv : Fields.get? patch k = some v)
    (h : merged place base patch = .ok (some result)) :
    ∃ current held, mergedValue (fieldPath place k) k current v = .ok held
      ∧ arranged place patch k held = .ok (Fields.get? result k) := by
  obtain ⟨m, hmode, h'⟩ := Outcome.bind_eq_ok_iff.mp h
  obtain rfl : m = .merge := by
    rcases mode_eq_ok hmode with hm | ⟨-, hreplace⟩ | ⟨rfl, -⟩
    · exact hm
    · exact absurd hreplace (Bool.eq_false_iff.mp hr)
    · cases h'
  obtain ⟨hd, -⟩ := Json.wellFormed_obj_iff.mp hpatch
  obtain ⟨names?, -, fs, -, -, hfs, -, hfields⟩ := fieldAfter_of_merged hd hmode h
  obtain rfl := Option.some.inj hfs
  have hafter := hfields k
  rw [fieldAfter_eq] at hafter
  obtain ⟨held, hheld, hafter⟩ := Outcome.bind_eq_ok_iff.mp hafter
  unfold Fields.revised at hheld
  rw [get?_dataFields, hk, if_neg Bool.false_ne_true, hv] at hheld
  exact ⟨_, held, hheld, hafter⟩

/-- **What an element is merged into has its name afterwards.** -/
theorem IsElement.get?_of_merged {key w : _} {element : Fields Json} (he : IsElement key w element)
    (hkey : isDirective key = false) {place : Text} {base result : Fields Json}
    (h : merged place base element = .ok (some result)) : Fields.get? result key = some w := by
  obtain ⟨current, held, hheld, hk⟩ :=
    exists_mergedValue_of_merged he.merges he.wellFormed hkey he.key h
  have hscalar : mergedValue (fieldPath place key) key current w
      = (do scalarAt (fieldPath place key) current; return some w) := by
    cases w with
    | str s => rfl
    | int i => rfl
    | _ => exact absurd he.name Bool.false_ne_true
  obtain ⟨_, -, hheld⟩ := Outcome.bind_eq_ok_iff.mp (hscalar.symm.trans hheld)
  obtain rfl := Except.ok.inj hheld
  rw [arranged_of_not_arr] at hk
  · exact (Except.ok.inj hk).symm
  · rintro items ⟨⟩
    exact absurd he.name Bool.false_ne_true

/-! ## One element -/

/-- The patch's element merged into the map that stands in the list. -/
def replaced (path key : Text) (w : Json) (element : Fields Json)
    (found? : Option (Fields Json)) : Outcome (Option (Fields Json)) :=
  replacement element
    (fun base => merged (elementPath path key w) base element) found?

/-- **The list can take the element**: at most one of its own has the name. -/
structure IsReady (key : Text) (w : Json) (items : List Json) : Prop where
  one : (named key w items).length ≤ 1
  wellFormed : ∀ x ∈ named key w items, WellFormed x
  unique : ∀ x ∈ named key w items, everywhere hasUniqueKeys x = true

/-- **The list shows the effect of the element**: what has its name is left as it is when
the element is put into the list again. -/
def IsAbsorbed (path key : Text) (w : Json) (element : Fields Json) (items : List Json) : Prop :=
  ∃ left? again? : Option (Fields Json), named key w items = (left?.map Json.obj).toList
    ∧ (∀ fs, left? = some fs → Fields.get? fs key = some w)
    ∧ replaced path key w element left? = .ok again?
    ∧ Alike (again?.map .obj) (left?.map .obj)

variable {path key : Text} {w : Json} {element : Fields Json} {items items' : List Json}

/-- **An element that was put into a list is absorbed.** -/
theorem isAbsorbed_of_intoList (he : IsElement key w element) (hkey : isDirective key = false)
    (hagain : IsIdempotent element) (hready : IsReady key w items)
    (h : intoList path key items element (fun place base => merged place base element)
      = .ok items') : IsAbsorbed path key w element items' := by
  obtain ⟨found?, left?, hfound, hleft, hitems⟩ := named_of_intoList he.key he.name
    (fun _ _ _ => he.get?_of_merged hkey) hready.one h
  have hname : ∀ fs, left? = some fs → Fields.get? fs key = some w := by
    rintro fs rfl
    exact get?_of_replacement (fun _ _ => he.get?_of_merged hkey) hleft
  by_cases hd : hasMode "delete" (.obj element) = true
  · rw [replacement, if_pos hd] at hleft
    cases hleft
    exact ⟨none, none, hitems, hname, by rw [replaced, replacement, if_pos hd], trivial⟩
  · rw [replacement, if_neg hd] at hleft
    have hbase : WellFormed (.obj (found?.getD []))
        ∧ everywhere hasUniqueKeys (.obj (found?.getD [])) = true := by
      cases found? with
      | none => exact ⟨rfl, rfl⟩
      | some fs =>
        have hmem : Json.obj fs ∈ named key w items := hfound ▸ List.mem_singleton.mpr rfl
        exact ⟨hready.wellFormed _ hmem, hready.unique _ hmem⟩
    obtain ⟨again?, hmerged, halike⟩ := hagain _ _ left? hbase.1 hbase.2 hleft
    exact ⟨left?, again?, hitems, hname, by rw [replaced, replacement, if_neg hd]; exact hmerged,
      halike⟩

/-- **An element stands for another** if it is the same and has the same identity. -/
structure StandsFor (key : Text) (x y : Json) : Prop where
  same : x.same y = true
  identity : identity (some key) x = identity (some key) y
  wellFormed : WellFormed x

theorem standsFor_refl {x : Json} (h : WellFormed x) : StandsFor key x x :=
  ⟨Json.same_refl h, rfl, h⟩

/-- **To put an absorbed element into a list changes nothing**: elements that stand for
its own are all that is found in it afterwards. -/
theorem exists_intoList_of_isAbsorbed (he : IsElement key w element)
    (hkey : isDirective key = false) (hitems : ∀ x ∈ items, WellFormed x)
    (h : IsAbsorbed path key w element items) :
    ∃ again, intoList path key items element (fun place base => merged place base element)
        = .ok again ∧ List.Forall₂ (StandsFor key) again items := by
  obtain ⟨left?, again?, hleft, hname, hagain, halike⟩ := h
  obtain ⟨pre, found?, post, hcut⟩ := exists_isCut key w items
  have hone : (named key w items).length ≤ 1 := by
    rw [hleft]
    cases left? with
    | none => exact Nat.zero_le _
    | some fs => exact Nat.le_refl _
  -- what the cut finds is what was left of the element the first time
  have hfound : found? = left? := by
    have heq := (hcut.named_eq hone).1.symm.trans hleft
    cases found? <;> cases left? <;> cases heq <;> rfl
  subst hfound
  refine ⟨pre ++ (again?.map Json.obj).toList ++ post, ?_, ?_⟩
  · rw [intoList_of_isCut he.key hcut]
    exact Outcome.bind_eq_ok_iff.mpr ⟨again?, hagain, rfl⟩
  · have hall := hcut.parts ▸ hitems
    have hrefl : ∀ {xs : List Json}, (∀ x ∈ xs, x ∈ pre ++ (found?.map Json.obj).toList ++ post) →
        List.Forall₂ (StandsFor key) xs xs :=
      fun hxs => List.forall₂_same.mpr fun x hx => standsFor_refl (hall x (hxs x hx))
    rw [hcut.parts]
    refine List.rel_append (List.rel_append (hrefl fun x hx => ?_) ?_) (hrefl fun x hx => ?_)
    · exact List.mem_append_left _ (List.mem_append_left _ hx)
    · cases found? with
      | none =>
        cases again? with
        | none => exact .nil
        | some fs => exact halike.elim
      | some held =>
        cases again? with
        | none => exact halike.elim
        | some fs =>
          have hmerged : merged (elementPath path key w) held element = .ok (some fs) := by
            unfold replaced replacement at hagain
            split at hagain
            · cases hagain
            · exact hagain
          have hid : identity (some key) (.obj fs) = identity (some key) (.obj held) := by
            show Fields.getD fs key .null = Fields.getD held key .null
            rw [Fields.getD, Fields.getD, he.get?_of_merged hkey hmerged, hname held rfl]
          have hheld : WellFormed (.obj held) :=
            hall _ (List.mem_append_left _ (List.mem_append_right _ List.mem_cons_self))
          exact .cons ⟨halike, hid, wellFormed_merged he.wellFormed hheld hmerged⟩ .nil
    · exact List.mem_append_right _ hx

/-! ## A whole list -/

/-- **The elements of a patch's list** have names, and no two the same. -/
structure IsElements (key : Text) (patch : List Json) : Prop where
  each : ∀ e ∈ patch, ∃ w element, e = .obj element ∧ IsElement key w element
  differ : patch.Pairwise (fun a b => shareKey key a b = false)

theorem IsElements.tail {e : Json} {patch : List Json} (h : IsElements key (e :: patch)) :
    IsElements key patch :=
  ⟨(List.forall_mem_cons.mp h.each).2, (List.pairwise_cons.mp h.differ).2⟩

/-- The first element's name is none of the others'. -/
theorem IsElements.ne {patch : List Json} (h : IsElements key (.obj element :: patch))
    (he : IsElement key w element) {w' : Json} {element' : Fields Json}
    (hmem : .obj element' ∈ patch) (he' : IsElement key w' element') : w ≠ w' := by
  rintro rfl
  have hdiffer := (List.pairwise_cons.mp h.differ).1 _ hmem
  exact Bool.eq_false_iff.mp hdiffer
    (shareKey_iff.mpr ⟨w, w, he.key, he'.key, eqv_self_of_isName he.name⟩)

/-- A name that none of the patch's elements has is not touched. -/
theorem named_of_mergedElements {patch : List Json} (hp : IsElements key patch)
    (hkey : isDirective key = false) (hw : isName w = true)
    (hne : ∀ w' element, .obj element ∈ patch → IsElement key w' element → w' ≠ w)
    (h : mergedElements path key items patch = .ok items') :
    named key w items' = named key w items := by
  induction patch generalizing items with
  | nil =>
    rw [mergedElements] at h
    cases h
    rfl
  | cons e patch ih =>
    obtain ⟨w', element, rfl, he⟩ := hp.each e List.mem_cons_self
    rw [mergedElements] at h
    obtain ⟨next, hnext, h⟩ := Outcome.bind_eq_ok_iff.mp h
    rw [ih hp.tail (fun w' element hmem => hne w' element (List.mem_cons_of_mem _ hmem)) h]
    exact named_of_intoList_of_ne he.key he.name hw (hne w' element List.mem_cons_self he)
      (fun _ _ _ => he.get?_of_merged hkey) hnext

/-- Whether a list can take an element is a matter of the element's name. -/
theorem IsReady.congr (h : IsReady key w items) (heq : named key w items' = named key w items) :
    IsReady key w items' :=
  ⟨heq ▸ h.one, heq ▸ h.wellFormed, heq ▸ h.unique⟩

/-- Whether an element is absorbed is a matter of its name. -/
theorem IsAbsorbed.congr (h : IsAbsorbed path key w element items)
    (heq : named key w items' = named key w items) : IsAbsorbed path key w element items' := by
  unfold IsAbsorbed at h ⊢
  rw [heq]
  exact h

/-- **A patch's elements are absorbed by the list they were merged into.** -/
theorem isAbsorbed_of_mergedElements {patch : List Json} (hp : IsElements key patch)
    (hkey : isDirective key = false)
    (hagain : ∀ element, Json.obj element ∈ patch → IsIdempotent element)
    (hready : ∀ w element, .obj element ∈ patch → IsElement key w element → IsReady key w items)
    (h : mergedElements path key items patch = .ok items') :
    ∀ w element, .obj element ∈ patch → IsElement key w element →
      IsAbsorbed path key w element items' := by
  induction patch generalizing items with
  | nil => exact fun _ _ hmem => absurd hmem List.not_mem_nil
  | cons e patch ih =>
    obtain ⟨w, element, rfl, he⟩ := hp.each e List.mem_cons_self
    rw [mergedElements] at h
    obtain ⟨next, hnext, hrest⟩ := Outcome.bind_eq_ok_iff.mp h
    have hmerge : ∀ place base fs, merged place base element = .ok (some fs) →
        Fields.get? fs key = some w := fun _ _ _ => he.get?_of_merged hkey
    intro w' element' hmem he'
    rcases List.mem_cons.mp hmem with heq | hmem
    · obtain rfl := Json.obj.inj heq
      obtain rfl := Option.some.inj (he.key.symm.trans he'.key)
      refine (isAbsorbed_of_intoList he hkey (hagain _ List.mem_cons_self)
        (hready w _ List.mem_cons_self he) hnext).congr ?_
      exact named_of_mergedElements hp.tail hkey he.name
        (fun _ _ hmem he' => (hp.ne he hmem he').symm) hrest
    · refine ih hp.tail (fun _ hmem => hagain _ (List.mem_cons_of_mem _ hmem))
        (fun w' element' hmem he' => ?_) hrest w' element' hmem he'
      exact (hready w' element' (List.mem_cons_of_mem _ hmem) he').congr
        (named_of_intoList_of_ne he.key he.name he'.name (hp.ne he hmem he') hmerge hnext)

theorem StandsFor.trans {x y z : Json} (hxy : StandsFor key x y) (hyz : StandsFor key y z)
    (hz : WellFormed z) : StandsFor key x z :=
  ⟨Json.same_trans hxy.wellFormed hyz.wellFormed hz hxy.same hyz.same,
    hxy.identity.trans hyz.identity, hxy.wellFormed⟩

theorem forall₂_standsFor_trans {xs ys zs : List Json}
    (hxy : List.Forall₂ (StandsFor key) xs ys) (hyz : List.Forall₂ (StandsFor key) ys zs)
    (hz : ∀ z ∈ zs, WellFormed z) : List.Forall₂ (StandsFor key) xs zs := by
  induction hxy generalizing zs with
  | nil => exact hyz
  | cons h _ ih =>
    cases hyz with
    | cons h' hs =>
      obtain ⟨hz, hzs⟩ := List.forall_mem_cons.mp hz
      exact .cons (h.trans h' hz) (ih hs hzs)

theorem wellFormed_of_forall₂ {xs ys : List Json} (h : List.Forall₂ (StandsFor key) xs ys) :
    ∀ x ∈ xs, WellFormed x := by
  induction h with
  | nil => exact fun x hx => absurd hx List.not_mem_nil
  | cons h _ ih => exact List.forall_mem_cons.mpr ⟨h.wellFormed, ih⟩

/-- **To merge elements that are absorbed changes nothing.** -/
theorem exists_mergedElements_of_isAbsorbed {patch : List Json} (hp : IsElements key patch)
    (hkey : isDirective key = false) (hitems : ∀ x ∈ items, WellFormed x)
    (h : ∀ w element, .obj element ∈ patch → IsElement key w element →
      IsAbsorbed path key w element items) :
    ∃ again, mergedElements path key items patch = .ok again
      ∧ List.Forall₂ (StandsFor key) again items := by
  induction patch generalizing items with
  | nil =>
    refine ⟨items, by rw [mergedElements], ?_⟩
    exact List.forall₂_same.mpr fun x hx => standsFor_refl (hitems x hx)
  | cons e patch ih =>
    obtain ⟨w, element, rfl, he⟩ := hp.each e List.mem_cons_self
    obtain ⟨next, hnext, hstands⟩ :=
      exists_intoList_of_isAbsorbed he hkey hitems (h w element List.mem_cons_self he)
    obtain ⟨again, hagain, hstands'⟩ := ih hp.tail (wellFormed_of_forall₂ hstands)
      fun w' element' hmem he' =>
        (h w' element' (List.mem_cons_of_mem _ hmem) he').congr
          (named_of_intoList_of_ne he.key he.name he'.name (hp.ne he hmem he')
            (fun _ _ _ => he.get?_of_merged hkey) hnext)
    refine ⟨again, ?_, forall₂_standsFor_trans hstands' hstands hitems⟩
    rw [mergedElements]
    exact Outcome.bind_eq_ok_iff.mpr ⟨next, hnext, hagain⟩

/-! ## A list that can take every element -/

/-- **No name is carried twice** where the merge-key values differ. -/
theorem length_named_le_one (hw : isName w = true) (hitems : ∀ x ∈ items, WellFormed x)
    (h : keysDiffer key items = true) : (named key w items).length ≤ 1 := by
  have hpair := (of_decide_eq_true h).sublist (List.filter_sublist (p := isNamed key w))
  have hmem : ∀ x ∈ named key w items, x ∈ items ∧ isNamed key w x = true :=
    fun x hx => List.mem_filter.mp hx
  change (named key w items).Pairwise _ at hpair
  cases hn : named key w items with
  | nil => exact Nat.zero_le _
  | cons x rest =>
    cases rest with
    | nil => exact Nat.le_refl _
    | cons y rest =>
      exfalso
      rw [hn] at hpair hmem
      obtain ⟨hx, hxw⟩ := hmem x List.mem_cons_self
      obtain ⟨hy, hyw⟩ := hmem y (List.mem_cons_of_mem _ List.mem_cons_self)
      have hxy := (List.pairwise_cons.mp hpair).1 y List.mem_cons_self
      obtain ⟨fs, v, rfl, hv, hvw⟩ := exists_of_isNamed hw hxw
      obtain ⟨gs, v', rfl, hv', hvw'⟩ := exists_of_isNamed hw hyw
      have hvv' := eqv_of_eqv_of_isName hw ((hitems _ hx).get? hv) ((hitems _ hy).get? hv') hvw hvw'
      exact Bool.eq_false_iff.mp hxy (shareKey_iff.mpr ⟨v, v', hv, hv', hvv'⟩)

/-- A list with merge-key values that differ can take any element. -/
theorem isReady_of_keysDiffer (hw : isName w = true) (hitems : ∀ x ∈ items, WellFormed x)
    (hunique : ∀ x ∈ items, everywhere hasUniqueKeys x = true)
    (h : keysDiffer key items = true) : IsReady key w items where
  one := length_named_le_one hw hitems h
  wellFormed x hx := hitems x (List.mem_of_mem_filter hx)
  unique x hx := hunique x (List.mem_of_mem_filter hx)

/-- Elements that carry names which differ are elements with names. -/
theorem isElements_of_all {patch : List Json} (hpatch : ∀ e ∈ patch, WellFormed e)
    (hr : patch.any (hasMode "replace") = false)
    (hnames : patch.all (fun x => (keyOf? key x).any isName) = true)
    (hdiffer : keysDiffer key patch = true) : IsElements key patch where
  each e he := by
    have hname := List.all_eq_true.mp hnames e he
    cases e with
    | obj element =>
      obtain ⟨w, hw, hwn⟩ := (Option.any_eq_true _ _).mp hname
      have hmerges := Bool.eq_false_iff.mpr (List.any_eq_false.mp hr _ he)
      exact ⟨w, element, rfl, hw, hwn, hmerges, hpatch _ he⟩
    | _ => cases hname
  differ := of_decide_eq_true hdiffer

/-- Whether an element is absorbed is no matter of the order. -/
theorem IsAbsorbed.perm (h : IsAbsorbed path key w element items) (hperm : items'.Perm items) :
    IsAbsorbed path key w element items' := by
  refine h.congr ?_
  obtain ⟨left?, -, hleft, -⟩ := h
  have hnamed : (named key w items').Perm (named key w items) := hperm.filter _
  rw [hleft] at hnamed ⊢
  cases left? with
  | none => exact List.perm_nil.mp hnamed
  | some fs => exact List.perm_singleton.mp hnamed

/-- **A patch's elements change nothing in the list they were merged into**, in whatever
order it was put since. -/
theorem mergedElements_again {patch sorted : List Json} (hp : IsElements key patch)
    (hkey : isDirective key = false)
    (hagain : ∀ element, Json.obj element ∈ patch → IsIdempotent element)
    (hitems : ∀ x ∈ items, WellFormed x)
    (hunique : ∀ x ∈ items, everywhere hasUniqueKeys x = true)
    (hdiffer : keysDiffer key items = true)
    (h : mergedElements path key items patch = .ok items') (hperm : sorted.Perm items')
    (hsorted : ∀ x ∈ sorted, WellFormed x) :
    ∃ again, mergedElements path key sorted patch = .ok again
      ∧ List.Forall₂ (StandsFor key) again sorted := by
  have habsorbed := isAbsorbed_of_mergedElements hp hkey hagain
    (fun _ _ _ he => isReady_of_keysDiffer he.name hitems hunique hdiffer) h
  exact exists_mergedElements_of_isAbsorbed hp hkey hsorted
    fun w element hmem he => (habsorbed w element hmem he).perm hperm

end Patch
end Rollout
