import Rollout.Proofs.Json.Sameness
import Rollout.Proofs.Patch.Fieldwise

/-!
# Keyed lists, name by name

The elements of a keyed list are known by what their merge key holds, their *name*
when that is a text or an integer. A list is cut at the first element with a name
(`Patch.IsCut`), and what a patch's element does is to put something else, or nothing,
in the place of the one that is cut out (`Patch.intoList_of_isCut`).

Of a list one asks which elements have a name (`Patch.named`). An element of a patch
changes the answer for its own name (`Patch.named_of_intoList`) and for no other
(`Patch.named_of_intoList_of_ne`), so that a patch whose elements have different names
can be taken element by element, in any state of the list.
-/

namespace Rollout
namespace Patch

open Json (WellFormed)

/-- A text or an integer, which is what names an element. -/
def isName : Json → Bool
  | .str _ => true
  | .int _ => true
  | _ => false

/-- The merge key of an element has the value. -/
def isNamed (key : Text) (wanted : Json) : Json → Bool
  | .obj fs => (Fields.getD fs key .null).eqv wanted
  | _ => false

/-- **The elements with a name.** -/
def named (key : Text) (wanted : Json) (items : List Json) : List Json :=
  items.filter (isNamed key wanted)

/-- A value is compared with a name as a scalar. -/
theorem eqv_eq_sameScalar {v w : Json} (hw : isName w = true) : v.eqv w = Json.sameScalar v w := by
  cases w with
  | str s => cases v <;> first | rfl | (rename_i x; cases x <;> rfl)
  | int i => cases v <;> first | rfl | (rename_i x; cases x <;> rfl)
  | _ => cases hw

/-- A name is equal to itself. -/
theorem eqv_self_of_isName {w : Json} (hw : isName w = true) : w.eqv w = true := by
  rw [eqv_eq_sameScalar hw]
  cases w with
  | str s => exact beq_self_eq_true s
  | int i => exact beq_self_eq_true i
  | _ => cases hw

/-- **What is equal to a name** is the same text, or a number that is worth the same. -/
theorem eqv_name_iff {v w : Json} (hw : isName w = true) :
    v.eqv w = true ↔ (∃ s, v = .str s ∧ w = .str s)
      ∨ ∃ x i, v.number? = some x ∧ w = .int i ∧ Json.worth x = .inl i := by
  have hworth : ∀ (x : Int ⊕ Binary64) (i : Int),
      Json.sameNumber x (.inl i) = true ↔ Json.worth x = .inl i := by
    intro x i
    cases x with
    | inl j => rw [Json.sameNumber, beq_iff_eq, Json.worth, Sum.inl.injEq, Int.cast_inj]
    | inr y =>
      cases y with
      | finite neg m q =>
        rw [Json.sameNumber, Json.eqvInt_finite_iff, Json.worth, Sum.inl.injEq]
      | _ => exact iff_of_false Bool.false_ne_true (by simp [Json.worth])
  rw [eqv_eq_sameScalar hw, Json.sameScalar_iff]
  constructor
  · rintro (⟨-, rfl⟩ | ⟨s, rfl, rfl⟩ | ⟨x, y, hx, hy, hxy⟩)
    · cases hw
    · exact .inl ⟨s, rfl, rfl⟩
    · cases w with
      | int i =>
        cases hy
        exact .inr ⟨x, i, hx, rfl, (hworth x i).mp hxy⟩
      | str s => cases hy
      | _ => cases hw
  · rintro (⟨s, rfl, rfl⟩ | ⟨x, i, hx, rfl, hxi⟩)
    · exact .inr (.inl ⟨s, rfl, rfl⟩)
    · exact .inr (.inr ⟨x, .inl i, hx, rfl, (hworth x i).mpr hxi⟩)

/-- **Nothing is equal to two names.** -/
theorem eq_of_eqv_of_isName {v w w' : Json} (hw : isName w = true) (hw' : isName w' = true)
    (h : v.eqv w = true) (h' : v.eqv w' = true) : w = w' := by
  rcases (eqv_name_iff hw).mp h with ⟨s, rfl, rfl⟩ | ⟨x, i, hx, rfl, hxi⟩ <;>
    rcases (eqv_name_iff hw').mp h' with ⟨t, ht, rfl⟩ | ⟨y, j, hy, rfl, hyj⟩
  · exact ht
  · cases hy
  · subst ht
    cases hx
  · obtain rfl := Option.some.inj (hx.symm.trans hy)
    rw [hxi, Sum.inl.injEq, Int.cast_inj] at hyj
    rw [hyj]

theorem wellFormed_of_isName {w : Json} (hw : isName w = true) : WellFormed w := by
  cases w with
  | str s => rfl
  | int i => rfl
  | _ => cases hw

/-- **What is equal to one name is equal.** -/
theorem eqv_of_eqv_of_isName {v v' w : Json} (hw : isName w = true) (hv : WellFormed v)
    (hv' : WellFormed v') (h : v.eqv w = true) (h' : v'.eqv w = true) : v.eqv v' = true := by
  have hwell := wellFormed_of_isName hw
  exact Json.eqv_trans hv hwell hv' h (Json.eqv_symm hv' hwell h')

/-- An element that has the name as it stands has it. -/
theorem isNamed_of_get? {key : Text} {w : Json} {fs : Fields Json} (hw : isName w = true)
    (h : Fields.get? fs key = some w) : isNamed key w (.obj fs) = true := by
  rw [isNamed, Fields.getD, h]
  exact eqv_self_of_isName hw

/-- An element with a name holds something at its merge key. -/
theorem exists_of_isNamed {key : Text} {w x : Json} (hw : isName w = true)
    (h : isNamed key w x = true) :
    ∃ fs v, x = .obj fs ∧ Fields.get? fs key = some v ∧ v.eqv w = true := by
  cases x with
  | obj fs =>
    rw [isNamed, Fields.getD] at h
    cases hv : Fields.get? fs key with
    | none =>
      rw [hv] at h
      rcases (eqv_name_iff hw).mp h with ⟨s, hs, -⟩ | ⟨y, i, hy, -⟩
      · cases hs
      · cases hy
    | some v =>
      rw [hv] at h
      exact ⟨fs, v, rfl, hv, h⟩
  | _ => cases h

/-- **An element has one name.** -/
theorem isNamed_eq_false_of_ne {key : Text} {w w' x : Json} (hw : isName w = true)
    (hw' : isName w' = true) (hne : w ≠ w') (h : isNamed key w x = true) :
    isNamed key w' x = false := by
  cases x with
  | obj fs =>
    refine Bool.eq_false_iff.mpr fun h' => hne ?_
    exact eq_of_eqv_of_isName hw hw' h h'
  | _ => cases h

/-! ## A list cut at a name -/

/-- **A list cut at the first element with a name**: what stands before it, the element
if there is one, and what stands behind it. -/
structure IsCut (key : Text) (wanted : Json) (items pre : List Json)
    (found? : Option (Fields Json)) (post : List Json) : Prop where
  parts : items = pre ++ (found?.map Json.obj).toList ++ post
  before : ∀ x ∈ pre, isNamed key wanted x = false
  found : ∀ fs, found? = some fs → isNamed key wanted (.obj fs) = true
  behind : found? = none → post = []

/-- What stands at a place that may be empty. -/
theorem exists_of_mem_toList {held? : Option (Fields Json)} {x : Json}
    (hx : x ∈ (held?.map Json.obj).toList) : ∃ fs, held? = some fs ∧ x = .obj fs := by
  obtain ⟨fs, hfs, rfl⟩ := Option.map_eq_some_iff.mp (Option.mem_toList.mp hx)
  exact ⟨fs, hfs, rfl⟩

theorem IsCut.mem_of_found {key : Text} {wanted : Json} {items pre post : List Json}
    {fs : Fields Json} (h : IsCut key wanted items pre (some fs) post) : .obj fs ∈ items := by
  rw [h.parts]
  exact List.mem_append_left _ (List.mem_append_right _ List.mem_cons_self)

theorem exists_isCut (key : Text) (wanted : Json) (items : List Json) :
    ∃ pre found? post, IsCut key wanted items pre found? post := by
  induction items with
  | nil => exact ⟨[], none, [], rfl, fun x hx => absurd hx List.not_mem_nil, nofun, fun _ => rfl⟩
  | cons x items ih =>
    obtain ⟨pre, found?, post, hparts, hbefore, hfound, hbehind⟩ := ih
    cases hx : isNamed key wanted x with
    | false =>
      refine ⟨x :: pre, found?, post, by rw [hparts]; rfl, ?_, hfound, hbehind⟩
      exact List.forall_mem_cons.mpr ⟨hx, hbefore⟩
    | true =>
      cases x with
      | obj fs =>
        refine ⟨[], some fs, items, rfl, fun x hx => absurd hx List.not_mem_nil, ?_, nofun⟩
        rintro _ ⟨⟩
        exact hx
      | _ => cases hx

theorem indexOf?_of_isCut {key : Text} {wanted : Json} {items pre post : List Json}
    {found? : Option (Fields Json)} (h : IsCut key wanted items pre found? post) :
    indexOf? key wanted items = found?.map (fun _ => pre.length) := by
  show items.findIdx? (isNamed key wanted) = _
  have hpre : pre.findIdx? (isNamed key wanted) = none := List.findIdx?_eq_none_iff.mpr h.before
  cases found? with
  | none =>
    obtain rfl := h.behind rfl
    rw [h.parts]
    show (pre ++ [] ++ []).findIdx? _ = none
    rw [List.append_nil, List.append_nil]
    exact hpre
  | some fs =>
    rw [h.parts, List.append_assoc, List.findIdx?_append, hpre]
    show Option.map _ ((Json.obj fs :: post).findIdx? _) = some pre.length
    rw [List.findIdx?_cons, if_pos (h.found fs rfl)]
    exact congrArg some (Nat.zero_add _)

/-- What an element of a patch puts in the place of the one with its name: nothing if it
says so, and otherwise what it was merged into. -/
def replacement (element : Fields Json) (merge : Fields Json → Outcome (Option (Fields Json)))
    (found? : Option (Fields Json)) : Outcome (Option (Fields Json)) :=
  if hasMode "delete" (.obj element) then .ok none else merge (found?.getD [])

/-- **What an element of a patch does to a list**: something else, or nothing, stands in
the place of the element with its name. -/
theorem intoList_of_isCut {path key : Text} {wanted : Json} {items pre post : List Json}
    {found? : Option (Fields Json)} {element : Fields Json}
    {merge : Text → Fields Json → Outcome (Option (Fields Json))}
    (hkey : Fields.get? element key = some wanted) (h : IsCut key wanted items pre found? post) :
    intoList path key items element merge = (do
      let left? ← replacement element (merge (elementPath path key wanted)) found?
      return pre ++ (left?.map Json.obj).toList ++ post) := by
  unfold intoList replacement
  rw [hkey]
  simp only [indexOf?_of_isCut h]
  have hlt : pre.length ≤ pre.length := Nat.le_refl _
  cases found? with
  | none =>
    -- nothing has the name, and what is merged goes behind all others
    obtain rfl := h.behind rfl
    have hitems : items = pre := by
      rw [h.parts]
      show pre ++ [] ++ [] = pre
      rw [List.append_nil, List.append_nil]
    subst hitems
    cases hasMode "delete" (.obj element) with
    | true =>
      show Except.ok items = Except.ok (items ++ [] ++ [])
      rw [List.append_nil, List.append_nil]
    | false =>
      show (merge (elementPath path key wanted) [] >>= _) = (merge _ [] >>= _)
      refine congrArg (merge (elementPath path key wanted) [] >>= ·) (funext fun left? => ?_)
      cases left? with
      | none =>
        show Except.ok items = Except.ok (items ++ [] ++ [])
        rw [List.append_nil, List.append_nil]
      | some fs =>
        show Except.ok (items ++ [Json.obj fs]) = Except.ok (items ++ [Json.obj fs] ++ [])
        rw [List.append_nil]
  | some fs =>
    -- the element at the cut is erased or replaced where it stands
    have hitems : items = pre ++ Json.obj fs :: post := by
      rw [h.parts, List.append_assoc]
      rfl
    subst hitems
    have herase : (pre ++ Json.obj fs :: post).eraseIdx pre.length = pre ++ post := by
      rw [List.eraseIdx_append_of_length_le hlt, Nat.sub_self]
      rfl
    cases hasMode "delete" (.obj element) with
    | true =>
      show Except.ok ((pre ++ Json.obj fs :: post).eraseIdx pre.length)
        = Except.ok (pre ++ [] ++ post)
      rw [herase, List.append_nil]
    | false =>
      have hbase : (pre ++ Json.obj fs :: post)[pre.length]? = some (.obj fs) := by
        rw [List.getElem?_append_right hlt, Nat.sub_self]
        rfl
      simp only [Option.map_some, Option.bind_some, hbase]
      show (merge (elementPath path key wanted) fs >>= _) = (merge _ fs >>= _)
      refine congrArg (merge (elementPath path key wanted) fs >>= ·) (funext fun left? => ?_)
      cases left? with
      | none =>
        show Except.ok ((pre ++ Json.obj fs :: post).eraseIdx pre.length)
          = Except.ok (pre ++ [] ++ post)
        rw [herase, List.append_nil]
      | some fs' =>
        show Except.ok ((pre ++ Json.obj fs :: post).set pre.length (.obj fs'))
          = Except.ok (pre ++ [Json.obj fs'] ++ post)
        rw [List.set_append_right _ _ hlt, Nat.sub_self, List.append_assoc]
        rfl

/-! ## Who has a name afterwards -/

variable {path key : Text} {w : Json} {element : Fields Json}
  {merge : Text → Fields Json → Outcome (Option (Fields Json))}

/-- What stands in the place of an element, if anything, has its name. -/
theorem named_toList (hw : isName w = true) {left? : Option (Fields Json)}
    (hleft : ∀ fs, left? = some fs → Fields.get? fs key = some w) :
    named key w (left?.map Json.obj).toList = (left?.map Json.obj).toList := by
  refine List.filter_eq_self.mpr fun x hx => ?_
  obtain ⟨fs, hfs, rfl⟩ := exists_of_mem_toList hx
  exact isNamed_of_get? hw (hleft fs hfs)

/-- What stands in the place of an element, if anything, does not have the name. -/
theorem named_toList_of_not {found? : Option (Fields Json)}
    (h : ∀ fs, found? = some fs → isNamed key w (.obj fs) = false) :
    named key w (found?.map Json.obj).toList = [] := by
  refine List.filter_eq_nil_iff.mpr fun x hx => ?_
  obtain ⟨fs, hfs, rfl⟩ := exists_of_mem_toList hx
  exact Bool.eq_false_iff.mp (h fs hfs)

theorem named_append (items items' : List Json) :
    named key w (items ++ items') = named key w items ++ named key w items' :=
  List.filter_append items items'

/-- If at most one element has the name, the one that is cut out is all that has. -/
theorem IsCut.named_eq {items pre post : List Json} {found? : Option (Fields Json)}
    (h : IsCut key w items pre found? post) (hone : (named key w items).length ≤ 1) :
    named key w items = (found?.map Json.obj).toList
      ∧ named key w pre = [] ∧ named key w post = [] := by
  have hpre : named key w pre = [] :=
    List.filter_eq_nil_iff.mpr fun x hx => Bool.eq_false_iff.mp (h.before x hx)
  have hall : named key w items
      = named key w (found?.map Json.obj).toList ++ named key w post := by
    rw [h.parts, named_append, named_append, hpre, List.nil_append]
  cases found? with
  | none =>
    obtain rfl := h.behind rfl
    exact ⟨hall, hpre, rfl⟩
  | some fs =>
    have hfound : named key w [Json.obj fs] = [Json.obj fs] :=
      List.filter_eq_self.mpr fun x hx => List.mem_singleton.mp hx ▸ h.found fs rfl
    rw [hall] at hone ⊢
    show _ = [Json.obj fs] ∧ _
    rw [show (Option.map Json.obj (some fs)).toList = [Json.obj fs] from rfl, hfound] at hone ⊢
    have hpost : named key w post = [] := by
      rw [List.length_append, List.length_singleton] at hone
      exact List.eq_nil_of_length_eq_zero (by omega)
    rw [hpost]
    exact ⟨rfl, hpre, rfl⟩

theorem get?_of_replacement {merge : Fields Json → Outcome (Option (Fields Json))}
    {found? : Option (Fields Json)} {fs : Fields Json}
    (hmerge : ∀ base fs, merge base = .ok (some fs) → Fields.get? fs key = some w)
    (h : replacement element merge found? = .ok (some fs)) : Fields.get? fs key = some w := by
  unfold replacement at h
  split at h
  · cases h
  · exact hmerge _ fs h

/-- **A value is not touched** by an element of a patch if neither what it finds nor what
it puts there has that value. -/
theorem named_of_intoList_of_not {items items' : List Json} {v : Json}
    (hkey : Fields.get? element key = some w)
    (hfound : ∀ fs, .obj fs ∈ items → isNamed key w (.obj fs) = true →
      isNamed key v (.obj fs) = false)
    (hmerge : ∀ place base fs, merge place base = .ok (some fs) → isNamed key v (.obj fs) = false)
    (h : intoList path key items element merge = .ok items') :
    named key v items' = named key v items := by
  obtain ⟨pre, found?, post, hcut⟩ := exists_isCut key w items
  rw [intoList_of_isCut hkey hcut] at h
  obtain ⟨left?, hleft, h⟩ := Outcome.bind_eq_ok_iff.mp h
  cases h
  have hgone : named key v (found?.map Json.obj).toList = [] := by
    refine named_toList_of_not fun fs hfs => ?_
    subst hfs
    exact hfound fs hcut.mem_of_found (hcut.found fs rfl)
  have hput : named key v (left?.map Json.obj).toList = [] := by
    refine named_toList_of_not fun fs hfs => ?_
    unfold replacement at hleft
    split at hleft
    · cases hleft
      cases hfs
    · exact hmerge _ _ fs (hfs ▸ hleft)
  rw [hcut.parts]
  simp only [named_append, hgone, hput]

/-- **No other name is touched** by an element of a patch. -/
theorem named_of_intoList_of_ne {items items' : List Json} {w' : Json}
    (hkey : Fields.get? element key = some w) (hw : isName w = true) (hw' : isName w' = true)
    (hne : w ≠ w')
    (hmerge : ∀ place base fs, merge place base = .ok (some fs) → Fields.get? fs key = some w)
    (h : intoList path key items element merge = .ok items') :
    named key w' items' = named key w' items :=
  named_of_intoList_of_not hkey (fun _ _ => isNamed_eq_false_of_ne hw hw' hne)
    (fun place base fs hfs =>
      isNamed_eq_false_of_ne hw hw' hne (isNamed_of_get? hw (hmerge place base fs hfs))) h

/-- **Who has the name afterwards**: what the element put in the place of the one that
had it. -/
theorem named_of_intoList {items items' : List Json}
    (hkey : Fields.get? element key = some w) (hw : isName w = true)
    (hmerge : ∀ place base fs, merge place base = .ok (some fs) → Fields.get? fs key = some w)
    (hone : (named key w items).length ≤ 1)
    (h : intoList path key items element merge = .ok items') :
    ∃ found? left? : Option (Fields Json), named key w items = (found?.map Json.obj).toList
      ∧ replacement element (merge (elementPath path key w)) found? = .ok left?
      ∧ named key w items' = (left?.map Json.obj).toList := by
  obtain ⟨pre, found?, post, hcut⟩ := exists_isCut key w items
  rw [intoList_of_isCut hkey hcut] at h
  obtain ⟨left?, hleft, h⟩ := Outcome.bind_eq_ok_iff.mp h
  cases h
  obtain ⟨hitems, hpre, hpost⟩ := hcut.named_eq hone
  have hfs : ∀ fs, left? = some fs → Fields.get? fs key = some w := by
    rintro fs rfl
    exact get?_of_replacement (hmerge _) hleft
  refine ⟨found?, left?, hitems, hleft, ?_⟩
  rw [named_append, named_append, named_toList hw hfs, hpre, hpost, List.nil_append,
    List.append_nil]

end Patch
end Rollout
