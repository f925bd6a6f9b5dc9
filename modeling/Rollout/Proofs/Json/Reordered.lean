import Mathlib.Data.List.Forall2
import Rollout.Api.State
import Rollout.Proofs.Json.Sameness

/-!
# Documents but for the order of fields

Two documents may hold the same values under the same names and still list the names in other
orders, in themselves or further down (`Json.Reordered`). No look-up tells them apart: what one
finds under a name is what the other finds there, but for the order again (`Json.Reordered.field`).
Sameness does not tell them apart either (`Json.Reordered.same`), although it identifies more, such
as a number with the truth value that counts as it.

What can tell them apart is to go through the fields, or to show a document as a text. A document
without objects has nothing to reorder, and is shown alike (`Json.Reordered.eq_of_isPlain`).
-/

namespace Rollout
namespace Json

open Api (field fieldsOf itemsOf)

/-- **The same but for the order of fields**, at every depth. -/
inductive Reordered : Json → Json → Prop
  | refl (j : Json) : Reordered j j
  | arr {xs ys : List Json} (hlength : xs.length = ys.length)
      (hitems : ∀ x y, (x, y) ∈ xs.zip ys → Reordered x y) : Reordered (arr xs) (arr ys)
  | obj {fs gs : Fields Json} (hnames : (Fields.names fs).Perm (Fields.names gs))
      (hfields : ∀ k v w, Fields.get? fs k = some v → Fields.get? gs k = some w → Reordered v w) :
      Reordered (obj fs) (obj gs)

/-- A document that holds no object, at any depth. -/
def IsPlain (j : Json) : Prop :=
  everywhere (fun v => !v.isObject) j = true

instance : DecidablePred IsPlain :=
  fun j => inferInstanceAs (Decidable (everywhere (fun v => !v.isObject) j = true))

variable {a b : Json} {fs gs : Fields Json} {xs ys : List Json}

theorem length_eq_of_names_perm (h : (Fields.names fs).Perm (Fields.names gs)) :
    fs.length = gs.length := by
  have hlength := h.length_eq
  rwa [Fields.names, Fields.names, List.length_map, List.length_map] at hlength

theorem isEmpty_eq_of_length_eq {α β : Type} {xs : List α} {ys : List β}
    (h : xs.length = ys.length) : xs.isEmpty = ys.isEmpty := by
  rw [Bool.eq_iff_iff, List.isEmpty_iff_length_eq_zero, List.isEmpty_iff_length_eq_zero, h]

/-- Two neighbours that change places. -/
theorem reordered_swap {k l : Text} {v v' w w' : Json} (hkl : k ≠ l) (hv : Reordered v v')
    (hw : Reordered w w') (fs : Fields Json) :
    Reordered (.obj ((k, v) :: (l, w) :: fs)) (.obj ((l, w') :: (k, v') :: fs)) := by
  refine .obj (List.Perm.swap _ _ _) fun name u u' hu hu' => ?_
  simp only [Fields.get?_cons] at hu hu'
  by_cases hk : k = name
  · subst hk
    rw [if_pos rfl] at hu
    rw [if_neg hkl.symm, if_pos rfl] at hu'
    exact Option.some.inj hu ▸ Option.some.inj hu' ▸ hv
  · rw [if_neg hk] at hu hu'
    by_cases hl : l = name
    · rw [if_pos hl] at hu hu'
      exact Option.some.inj hu ▸ Option.some.inj hu' ▸ hw
    · rw [if_neg hl] at hu hu'
      exact Option.some.inj (hu.symm.trans hu') ▸ .refl u

/-- **Items that stand at the same place** are the same but for the order of fields. -/
theorem reordered_arr_iff : Reordered (.arr xs) (.arr ys) ↔ List.Forall₂ Reordered xs ys := by
  refine ⟨fun h => ?_, fun h => ?_⟩
  · cases h with
    | refl => exact List.forall₂_same.mpr fun x _ => .refl x
    | arr hlength hitems => exact List.forall₂_iff_zip.mpr ⟨hlength, fun h => hitems _ _ h⟩
  · obtain ⟨hlength, hitems⟩ := List.forall₂_iff_zip.mp h
    exact .arr hlength fun _ _ => hitems

/-- **What is found under a name** is the same but for the order of fields. -/
theorem Reordered.get? (h : Reordered (.obj fs) (.obj gs)) (k : Text) :
    Option.Rel Reordered (Fields.get? fs k) (Fields.get? gs k) := by
  cases h with
  | refl => cases Fields.get? fs k with
    | none => exact .none
    | some v => exact .some (.refl v)
  | obj hnames hfields =>
    cases hv : Fields.get? fs k with
    | none =>
      have hk := mt hnames.mem_iff.mpr (Fields.get?_eq_none_iff.mp hv)
      rw [Fields.get?_eq_none_iff.mpr hk]
      exact .none
    | some v =>
      cases hw : Fields.get? gs k with
      | none =>
        have hk := mt hnames.mem_iff.mp (Fields.get?_eq_none_iff.mp hw)
        rw [Fields.get?_eq_none_iff.mpr hk] at hv
        cases hv
      | some w => exact .some (hfields k v w hv hw)

theorem Reordered.names_perm (h : Reordered (.obj fs) (.obj gs)) :
    (Fields.names fs).Perm (Fields.names gs) := by
  cases h with
  | refl => exact .refl _
  | obj hnames _ => exact hnames

/-- **A document without objects** is the same in every order. -/
theorem Reordered.eq_of_isPlain (h : Reordered a b) (ha : IsPlain a) : a = b := by
  induction h with
  | refl => rfl
  | arr hlength _ ih =>
    have hplain := (everywhere_arr_iff.mp ha).2
    refine congrArg Json.arr (List.forall₂_eq_eq_eq ▸ List.forall₂_iff_zip.mpr ⟨hlength, ?_⟩)
    exact fun h => ih _ _ h (hplain _ (List.of_mem_zip h).1)
  | obj => exact absurd (everywhere_obj_iff.mp ha).1 Bool.false_ne_true

theorem Reordered.truthy_eq (h : Reordered a b) : a.truthy = b.truthy := by
  cases h with
  | refl => rfl
  | arr hlength => exact congrArg (! ·) (isEmpty_eq_of_length_eq hlength)
  | obj hnames => exact congrArg (! ·) (isEmpty_eq_of_length_eq (length_eq_of_names_perm hnames))

/-! ## Parts of documents -/

theorem Reordered.fieldsOf (h : Reordered a b) :
    Reordered (.obj (fieldsOf a)) (.obj (fieldsOf b)) := by
  cases h with
  | refl => exact .refl _
  | arr => exact .refl _
  | obj hnames hfields => exact .obj hnames hfields

theorem Reordered.getD (h : Reordered a b) (name : Text) (fallback : Json) :
    Reordered (Fields.getD (Api.fieldsOf a) name fallback)
      (Fields.getD (Api.fieldsOf b) name fallback) := by
  have hrel := h.fieldsOf.get? name
  rw [Fields.getD, Fields.getD]
  generalize Fields.get? (Api.fieldsOf a) name = v?, Fields.get? (Api.fieldsOf b) name = w? at hrel
  cases hrel with
  | none => exact .refl _
  | some h => exact h

/-- **Look-ups do not tell documents apart** but for the order of fields. -/
theorem Reordered.field (h : Reordered a b) (name : Text) :
    Reordered (field a name) (field b name) :=
  h.getD name .null

theorem Reordered.itemsOf (h : Reordered a b) :
    List.Forall₂ Reordered (itemsOf a) (itemsOf b) := by
  cases h with
  | refl => exact List.forall₂_same.mpr fun x _ => .refl x
  | arr hlength hitems => exact reordered_arr_iff.mp (.arr hlength hitems)
  | obj => exact .nil

theorem WellFormed.fieldsOf (h : WellFormed a) : WellFormed (.obj (fieldsOf a)) := by
  cases a with
  | obj fs => exact h
  | _ => exact rfl

theorem WellFormed.field (h : WellFormed a) (name : Text) : WellFormed (field a name) := by
  rw [Api.field, Fields.getD]
  cases hv : Fields.get? (Api.fieldsOf a) name with
  | none => exact rfl
  | some v => exact h.fieldsOf.get? hv

theorem WellFormed.itemsOf (h : WellFormed a) : ∀ x ∈ itemsOf a, WellFormed x := by
  cases a with
  | arr items => exact wellFormed_arr_iff.mp h
  | _ => exact nofun

/-! ## Sameness -/

/-- **Sameness has no eye for the order of fields.** -/
theorem Reordered.same (h : Reordered a b) (ha : WellFormed a) : same a b = true := by
  induction h with
  | refl => exact same_refl ha
  | arr hlength _ ih =>
    rw [Json.same, sameItems_iff]
    refine List.forall₂_iff_zip.mpr ⟨hlength, fun hmem => ih _ _ hmem ?_⟩
    exact wellFormed_arr_iff.mp ha _ (List.of_mem_zip hmem).1
  | @obj fs gs hnames hfields ih =>
    obtain ⟨hd, hall⟩ := wellFormed_obj_iff.mp ha
    rw [Json.same, Bool.and_eq_true, beq_iff_eq, sameFields_iff]
    refine ⟨length_eq_of_names_perm hnames, fun f hf => ?_⟩
    have hv : Fields.get? fs f.1 = some f.2 := (Fields.get?_eq_some_iff hd).mpr hf
    cases hw : Fields.get? gs f.1 with
    | none =>
      have hk : f.1 ∈ Fields.names fs := Fields.mem_names_of_mem hf
      exact absurd (hnames.mem_iff.mp hk) (Fields.get?_eq_none_iff.mp hw)
    | some w => exact ⟨w, rfl, ih f.1 f.2 w hv hw (hall f hf)⟩

end Json
end Rollout
