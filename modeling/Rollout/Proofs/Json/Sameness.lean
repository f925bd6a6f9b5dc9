import Mathlib.Data.List.Perm.Subperm
import Rollout.Json.Equality
import Rollout.Proofs.Json.Portable
import Rollout.Proofs.Number.Rounding

/-!
# Sameness is an equality

Sameness of documents is decided case by case, a number being compared with an
integer in one way and with another number in another. On documents whose numbers
are of their format and whose objects have no name twice (`Json.WellFormed`) it
behaves as an equality should: every document is the same as itself
(`Json.same_refl`), it makes no difference which of two is compared with which
(`Json.same_symm`), and what is the same as the same thing is the same
(`Json.same_trans`).

For numbers this is so because each stands for one value (`Json.worth`), and
canonical numbers of one value are one number. For objects sameness is a matter of
look-ups (`Json.same_obj_iff`): the order of the fields plays no part.
-/

namespace Rollout
namespace Json

/-- A number of its format, and an object that has no name twice. -/
def isWellFormedPart : Json → Bool
  | float x => decide x.Canonical
  | obj fs => decide (Fields.names fs).Nodup
  | _ => true

/-- **A document whose parts are values**: numbers are canonical and names are
distinct, at every depth. -/
def WellFormed (j : Json) : Prop :=
  everywhere isWellFormedPart j = true

instance : DecidablePred WellFormed :=
  fun j => inferInstanceAs (Decidable (everywhere isWellFormedPart j = true))

theorem wellFormed_arr_iff {items : List Json} :
    WellFormed (arr items) ↔ ∀ x ∈ items, WellFormed x := by
  unfold WellFormed
  rw [everywhere_arr_iff]
  exact and_iff_right rfl

theorem wellFormed_obj_iff {fs : Fields Json} :
    WellFormed (obj fs) ↔ Fields.Distinct fs ∧ ∀ f ∈ fs, WellFormed f.2 := by
  unfold WellFormed
  rw [everywhere_obj_iff, isWellFormedPart, decide_eq_true_eq]
  exact Iff.rfl

/-- What is looked up in a well-formed object is well-formed. -/
theorem WellFormed.get? {fs : Fields Json} (h : WellFormed (obj fs)) {k : Text} {v : Json}
    (hv : Fields.get? fs k = some v) : WellFormed v :=
  everywhere_of_get? h hv

/-- Portable parts are well-formed. -/
theorem wellFormed_of_everywhere {j : Json} (h : everywhere isPortablePart j = true) :
    WellFormed j := by
  refine everywhere_mono (fun j hj => ?_) h
  cases j with
  | float x => exact hj
  | obj fs => exact decide_eq_true (isPortablePart_obj_iff.mp hj).1
  | _ => rfl

/-- A document that travels is well-formed. -/
theorem Portable.wellFormed {j : Json} (h : Portable j) : WellFormed j :=
  wellFormed_of_everywhere h.parts

/-! ## Numbers -/

/-- **What a number is worth.** Infinities and NaN are worth themselves. -/
def worth : Int ⊕ Binary64 → ℚ ⊕ Binary64
  | .inl i => .inl i
  | .inr (.finite neg m q) => .inl (if neg then -Binary64.size m q else Binary64.size m q)
  | .inr x => .inr x

/-- A number of its format. -/
def IsCanonical : Int ⊕ Binary64 → Prop
  | .inl _ => True
  | .inr x => x.Canonical

theorem size_nonneg (m : Nat) (q : Int) : 0 ≤ Binary64.size m q :=
  mul_nonneg (Nat.cast_nonneg m) (zpow_pos two_pos q).le

theorem size_eq_zero_iff {m : Nat} {q : Int} : Binary64.size m q = 0 ↔ m = 0 := by
  rw [Binary64.size, mul_eq_zero, Nat.cast_eq_zero]
  exact or_iff_left (zpow_pos two_pos q).ne'

/-- A number is an integer if its value is. -/
theorem eqvInt_finite_iff (neg : Bool) (m : Nat) (q i : Int) :
    (Binary64.finite neg m q).eqvInt i = true
      ↔ (if neg then -Binary64.size m q else Binary64.size m q) = i := by
  have hb : ((Binary64.ratio m q).2 : ℚ) ≠ 0 := by
    exact_mod_cast (Binary64.ratio_snd_pos m q).ne'
  rw [Binary64.eqvInt, beq_iff_eq, ← Binary64.ratio_size]
  generalize Binary64.ratio m q = r at hb
  cases neg with
  | true =>
    rw [if_pos rfl, neg_eq_iff_eq_neg, div_eq_iff hb]
    show -(r.1 : Int) = i * r.2 ↔ _
    rw [neg_eq_iff_eq_neg, ← Int.neg_mul]
    exact_mod_cast Iff.rfl
  | false =>
    rw [if_neg Bool.false_ne_true, div_eq_iff hb]
    show (r.1 : Int) = i * r.2 ↔ _
    exact_mod_cast Iff.rfl

/-- Canonical numbers are equal if their values are. -/
theorem eqv_finite_iff {s t : Bool} {m n : Nat} {q r : Int}
    (hm : (Binary64.finite s m q).Canonical) (hn : (Binary64.finite t n r).Canonical) :
    (Binary64.finite s m q).eqv (.finite t n r) = true
      ↔ (if s then -Binary64.size m q else Binary64.size m q)
        = if t then -Binary64.size n r else Binary64.size n r := by
  rw [Binary64.eqv, Bool.or_eq_true, Bool.and_eq_true, Bool.and_eq_true, Bool.and_eq_true,
    beq_iff_eq, beq_iff_eq, beq_iff_eq, beq_iff_eq, beq_iff_eq]
  constructor
  · rintro (⟨rfl, rfl⟩ | ⟨⟨rfl, rfl⟩, rfl⟩)
    · rw [size_eq_zero_iff.mpr rfl, size_eq_zero_iff.mpr rfl]
      cases s <;> cases t <;> simp
    · rfl
  · intro h
    have hs := size_nonneg m q
    have ht := size_nonneg n r
    by_cases hst : s = t
    · subst hst
      have hsize : Binary64.size m q = Binary64.size n r := by
        cases s with
        | true => exact neg_injective h
        | false => exact h
      obtain ⟨rfl, rfl⟩ := Binary64.eq_of_size_eq hm hn hsize
      exact .inr ⟨⟨rfl, rfl⟩, rfl⟩
    · -- of two signs, both sizes are zero
      refine .inl ⟨(size_eq_zero_iff (q := q)).mp ?_, (size_eq_zero_iff (q := r)).mp ?_⟩ <;>
        cases s <;> cases t <;> simp at hst h <;> linarith

/-- **Numbers are the same if they are worth the same.** -/
theorem sameNumber_iff {a b : Int ⊕ Binary64} (ha : IsCanonical a) (hb : IsCanonical b) :
    sameNumber a b = true ↔ worth a = worth b := by
  rcases a with i | x <;> rcases b with j | y
  · rw [sameNumber, beq_iff_eq, worth, worth, Sum.inl.injEq, Int.cast_inj]
  · cases y with
    | finite neg m q =>
      rw [sameNumber, eqvInt_finite_iff, worth, worth, Sum.inl.injEq]
      exact eq_comm
    | _ => exact iff_of_false Bool.false_ne_true (by simp [worth])
  · cases x with
    | finite neg m q => rw [sameNumber, eqvInt_finite_iff, worth, worth, Sum.inl.injEq]
    | _ => exact iff_of_false Bool.false_ne_true (by simp [worth])
  · cases x with
    | nan => cases y <;> simp [sameNumber, worth, Binary64.eqv]
    | infinite s => cases y <;> simp [sameNumber, worth, Binary64.eqv]
    | finite s m q =>
      cases y with
      | finite t n r =>
        rw [worth, worth, Sum.inl.injEq]
        exact eqv_finite_iff ha hb
      | _ => simp [sameNumber, worth, Binary64.eqv]

/-- It makes no difference which of two numbers is compared with which. -/
theorem sameNumber_comm (a b : Int ⊕ Binary64) : sameNumber a b = sameNumber b a := by
  rcases a with i | x <;> rcases b with j | y
  · exact Bool.beq_comm
  · cases y <;> rfl
  · cases x <;> rfl
  · cases x <;> cases y <;> simp [sameNumber, Binary64.eqv, Bool.beq_comm, Bool.and_comm]

/-! ## Scalars -/

/-- Scalars are the same if they are null, one text, or the same number. -/
theorem sameScalar_iff {a b : Json} :
    sameScalar a b = true
      ↔ (a = null ∧ b = null) ∨ (∃ s, a = str s ∧ b = str s)
        ∨ ∃ x y, a.number? = some x ∧ b.number? = some y ∧ sameNumber x y = true := by
  cases a <;> cases b <;> simp [sameScalar, number?]
  exact eq_comm

/-- It makes no difference which of two scalars is compared with which. -/
theorem sameScalar_comm (a b : Json) : sameScalar a b = sameScalar b a := by
  have hnumber : (∃ x y, a.number? = some x ∧ b.number? = some y ∧ sameNumber x y = true)
      ↔ ∃ x y, b.number? = some x ∧ a.number? = some y ∧ sameNumber x y = true := by
    constructor <;>
    · rintro ⟨x, y, hx, hy, h⟩
      exact ⟨y, x, hy, hx, sameNumber_comm x y ▸ h⟩
  rw [Bool.eq_iff_iff, sameScalar_iff, sameScalar_iff, hnumber]
  simp only [and_comm]

theorem isCanonical_of_number? {j : Json} (h : WellFormed j) {x : Int ⊕ Binary64}
    (hx : j.number? = some x) : IsCanonical x := by
  cases j with
  | bool b => cases hx; trivial
  | int i => cases hx; trivial
  | float y => cases hx; exact of_decide_eq_true (p := y.Canonical) h
  | _ => cases hx

theorem sameScalar_trans {a b c : Json} (ha : WellFormed a) (hb : WellFormed b)
    (hc : WellFormed c) (hab : sameScalar a b = true) (hbc : sameScalar b c = true) :
    sameScalar a c = true := by
  rcases sameScalar_iff.mp hab with ⟨rfl, rfl⟩ | ⟨s, rfl, rfl⟩ | ⟨x, y, hx, hy, hxy⟩
  · exact hbc
  · exact hbc
  · rcases sameScalar_iff.mp hbc with ⟨rfl, -⟩ | ⟨s, rfl, -⟩ | ⟨y', z, hy', hz, hyz⟩
    · cases hy
    · cases hy
    · rw [hy] at hy'
      obtain rfl := Option.some.inj hy'
      have hxc := isCanonical_of_number? ha hx
      have hyc := isCanonical_of_number? hb hy
      have hzc := isCanonical_of_number? hc hz
      refine sameScalar_iff.mpr (.inr (.inr ⟨x, z, hx, hz, ?_⟩))
      rw [sameNumber_iff hxc hzc, (sameNumber_iff hxc hyc).mp hxy, (sameNumber_iff hyc hzc).mp hyz]

/-- What is the same as a scalar is compared as a scalar too. -/
theorem same_eq_sameScalar {a b : Json} (hs : ∀ c, same a c = sameScalar a c)
    (h : same a b = true) (c : Json) : same b c = sameScalar b c := by
  rw [hs] at h
  rcases sameScalar_iff.mp h with ⟨-, rfl⟩ | ⟨s, -, rfl⟩ | ⟨x, y, -, hy, -⟩
  · rfl
  · rfl
  · cases b <;> first | rfl | cases hy

theorem same_trans_of_scalar {a b c : Json} (hs : ∀ b, same a b = sameScalar a b)
    (ha : WellFormed a) (hb : WellFormed b) (hc : WellFormed c) (hab : same a b = true)
    (hbc : same b c = true) : same a c = true := by
  rw [same_eq_sameScalar hs hab] at hbc
  rw [hs] at hab ⊢
  exact sameScalar_trans ha hb hc hab hbc

theorem same_symm_of_scalar {a b : Json} (hs : ∀ b, same a b = sameScalar a b)
    (h : same a b = true) : same b a = true := by
  rw [same_eq_sameScalar hs h, sameScalar_comm, ← hs]
  exact h

/-! ## Containers -/

theorem sameItems_iff {xs ys : List Json} :
    sameItems xs ys = true ↔ List.Forall₂ (fun x y => same x y = true) xs ys := by
  induction xs generalizing ys with
  | nil => cases ys <;> simp [sameItems]
  | cons x xs ih => cases ys <;> simp [sameItems, ih]

theorem sameFields_iff {fs gs : Fields Json} :
    sameFields fs gs = true
      ↔ ∀ f ∈ fs, ∃ w, Fields.get? gs f.1 = some w ∧ same f.2 w = true := by
  induction fs with
  | nil => simp [sameFields]
  | cons f fs ih =>
    obtain ⟨k, v⟩ := f
    rw [sameFields, Bool.and_eq_true, ih, List.forall_mem_cons]
    refine and_congr_left fun _ => ?_
    cases Fields.get? gs k <;> simp

/-- **What two look-ups give is alike**: nothing both times, or the same. -/
def Alike : Option Json → Option Json → Prop
  | none, none => True
  | some v, some w => same v w = true
  | _, _ => False

/-- **Objects are the same if every look-up is alike in them.** -/
theorem same_obj_iff {fs gs : Fields Json} (hf : Fields.Distinct fs) (hg : Fields.Distinct gs) :
    same (obj fs) (obj gs) = true ↔ ∀ k, Alike (Fields.get? fs k) (Fields.get? gs k) := by
  rw [same, Bool.and_eq_true, beq_iff_eq, sameFields_iff]
  constructor
  · rintro ⟨hlen, hmem⟩ k
    cases hv : Fields.get? fs k with
    | some v =>
      obtain ⟨w, hw, hvw⟩ := hmem _ (Fields.mem_of_get? hv)
      rw [hw]
      exact hvw
    | none =>
      have hsub : Fields.names fs ⊆ Fields.names gs := by
        intro n hn
        obtain ⟨f, hf', rfl⟩ := List.mem_map.mp hn
        obtain ⟨w, hw, -⟩ := hmem f hf'
        exact Fields.mem_names_of_mem (Fields.mem_of_get? hw)
      have hperm : (Fields.names fs).Perm (Fields.names gs) := by
        refine (List.subperm_of_subset hf hsub).perm_of_length_le ?_
        rw [Fields.names, Fields.names, List.length_map, List.length_map, hlen]
      have hk := Fields.get?_eq_none_iff.mp hv
      rw [Fields.get?_eq_none_iff.mpr fun h => hk (hperm.mem_iff.mpr h)]
      trivial
  · intro h
    refine ⟨Fields.length_eq_of_isSome hf hg fun k => ?_, fun f hf' => ?_⟩
    · have hk := h k
      revert hk
      cases Fields.get? fs k <;> cases Fields.get? gs k <;> simp [Alike]
    · have hk := h f.1
      rw [(Fields.get?_eq_some_iff hf).mpr hf'] at hk
      cases hw : Fields.get? gs f.1 with
      | none => rw [hw] at hk; exact hk.elim
      | some w => rw [hw] at hk; exact ⟨w, rfl, hk⟩

/-! ## The laws -/

/-- **Every document is the same as itself.** -/
theorem same_refl {j : Json} (h : WellFormed j) : same j j = true := by
  have hnumber : ∀ {j : Json} {x : Int ⊕ Binary64}, WellFormed j → j.number? = some x →
      sameScalar j j = true := by
    intro j x hj hx
    have hc := isCanonical_of_number? hj hx
    exact sameScalar_iff.mpr (.inr (.inr ⟨x, x, hx, hx, (sameNumber_iff hc hc).mpr rfl⟩))
  induction j using Json.induction with
  | null => rfl
  | bool b => exact hnumber h rfl
  | int i => exact hnumber h rfl
  | float x => exact hnumber h rfl
  | str s => exact sameScalar_iff.mpr (.inr (.inl ⟨s, rfl, rfl⟩))
  | arr items ih =>
    have hs := wellFormed_arr_iff.mp h
    rw [same, sameItems_iff, List.forall₂_same]
    exact fun x hx => ih x hx (hs x hx)
  | obj fs ih =>
    obtain ⟨hd, hs⟩ := wellFormed_obj_iff.mp h
    rw [same_obj_iff hd hd]
    intro k
    cases hv : Fields.get? fs k with
    | none => trivial
    | some v =>
      have hmem := Fields.mem_of_get? hv
      exact ih _ hmem (hs _ hmem)

/-- **What is the same as the same thing is the same.** -/
theorem same_trans {a b c : Json} (ha : WellFormed a) (hb : WellFormed b) (hc : WellFormed c)
    (hab : same a b = true) (hbc : same b c = true) : same a c = true := by
  induction a using Json.induction generalizing b c with
  | arr xs ih =>
    cases b with
    | arr ys =>
      cases c with
      | arr zs =>
        rw [same, sameItems_iff] at hab hbc ⊢
        have hx := wellFormed_arr_iff.mp ha
        have hy := wellFormed_arr_iff.mp hb
        have hz := wellFormed_arr_iff.mp hc
        -- item by item, with the items of all three lists at hand
        clear ha hb hc
        induction hab generalizing zs with
        | nil => exact hbc
        | cons hxy _ ihs =>
          cases hbc with
          | cons hyz hyzs =>
            obtain ⟨hx₀, hx⟩ := List.forall_mem_cons.mp hx
            obtain ⟨hy₀, hy⟩ := List.forall_mem_cons.mp hy
            obtain ⟨hz₀, hz⟩ := List.forall_mem_cons.mp hz
            obtain ⟨ih₀, ih⟩ := List.forall_mem_cons.mp ih
            exact .cons (ih₀ hx₀ hy₀ hz₀ hxy hyz) (ihs ih _ hyzs hx hy hz)
      | _ => cases hbc
    | _ => cases hab
  | obj fs ih =>
    cases b with
    | obj gs =>
      cases c with
      | obj hs =>
        obtain ⟨hdf, hwf⟩ := wellFormed_obj_iff.mp ha
        obtain ⟨hdg, hwg⟩ := wellFormed_obj_iff.mp hb
        obtain ⟨hdh, hwh⟩ := wellFormed_obj_iff.mp hc
        rw [same_obj_iff hdf hdg] at hab
        rw [same_obj_iff hdg hdh] at hbc
        rw [same_obj_iff hdf hdh]
        intro k
        have h₁ := hab k
        have h₂ := hbc k
        -- a name is in all three objects or in none
        cases hu : Fields.get? fs k <;> cases hv : Fields.get? gs k <;>
          cases hw : Fields.get? hs k <;> rw [hu, hv] at h₁ <;> rw [hv, hw] at h₂
        all_goals first
          | exact trivial
          | exact h₁.elim
          | exact h₂.elim
          | exact ih _ (Fields.mem_of_get? hu) (hwf _ (Fields.mem_of_get? hu))
              (hwg _ (Fields.mem_of_get? hv)) (hwh _ (Fields.mem_of_get? hw)) h₁ h₂
      | _ => cases hbc
    | _ => cases hab
  | _ => exact same_trans_of_scalar (fun _ => rfl) ha hb hc hab hbc

/-- What is alike one way is alike the other way, if the two values are. -/
theorem Alike.symm {v? w? : Option Json} (h : Alike v? w?)
    (hs : ∀ v w, v? = some v → w? = some w → same v w = true → same w v = true) :
    Alike w? v? := by
  cases v? <;> cases w?
  · trivial
  · exact h.elim
  · exact h.elim
  · exact hs _ _ rfl rfl h

/-- **It makes no difference which of two documents is compared with which.** -/
theorem same_symm {a b : Json} (ha : WellFormed a) (hb : WellFormed b) (h : same a b = true) :
    same b a = true := by
  induction a using Json.induction generalizing b with
  | arr xs ih =>
    cases b with
    | arr ys =>
      rw [same, sameItems_iff] at h ⊢
      have hx := wellFormed_arr_iff.mp ha
      have hy := wellFormed_arr_iff.mp hb
      have hxs : List.Forall₂ (fun x y => x ∈ xs ∧ same x y = true) xs ys :=
        (List.forall₂_and_left xs ys).mpr ⟨fun _ hx => hx, h⟩
      have hys : List.Forall₂ (fun y x => y ∈ ys ∧ x ∈ xs ∧ same x y = true) ys xs :=
        (List.forall₂_and_left ys xs).mpr ⟨fun _ hy => hy, hxs.flip⟩
      exact hys.imp fun y x ⟨hy', hx', hxy⟩ => ih x hx' (hx x hx') (hy y hy') hxy
    | _ => cases h
  | obj fs ih =>
    cases b with
    | obj gs =>
      obtain ⟨hdf, hwf⟩ := wellFormed_obj_iff.mp ha
      obtain ⟨hdg, hwg⟩ := wellFormed_obj_iff.mp hb
      rw [same_obj_iff hdf hdg] at h
      rw [same_obj_iff hdg hdf]
      refine fun k => (h k).symm fun v w hv hw => ?_
      have hmem := Fields.mem_of_get? hv
      exact ih _ hmem (hwf _ hmem) (hwg _ (Fields.mem_of_get? hw))
    | _ => cases h
  | _ => exact same_symm_of_scalar (fun _ => rfl) h

/-- Documents that are the same are the same as the same things. -/
theorem same_congr {a b c : Json} (ha : WellFormed a) (hb : WellFormed b) (hc : WellFormed c)
    (hab : same a b = true) : same a c = same b c :=
  Bool.eq_iff_iff.mpr ⟨same_trans hb ha hc (same_symm ha hb hab), same_trans ha hb hc hab⟩

/-- **What is equal on its own** is the same and no NaN. -/
theorem eqv_iff {a b : Json} : a.eqv b = true ↔ same a b = true ∧ a ≠ float .nan := by
  unfold eqv
  split
  · exact iff_of_false Bool.false_ne_true (fun h => h.2 rfl)
  · rename_i hne
    refine (and_iff_left_of_imp fun h => ?_).symm
    rintro rfl
    cases b with
    | float y =>
      cases y with
      | nan => exact hne rfl rfl
      | _ => cases h
    | _ => cases h

theorem eqv_symm {a b : Json} (ha : WellFormed a) (hb : WellFormed b) (h : a.eqv b = true) :
    b.eqv a = true := by
  obtain ⟨hsame, hne⟩ := eqv_iff.mp h
  refine eqv_iff.mpr ⟨same_symm ha hb hsame, ?_⟩
  rintro rfl
  -- only a NaN is the same as a NaN
  cases a with
  | float x =>
    cases x with
    | nan => exact hne rfl
    | _ => cases hsame
  | _ => cases hsame

theorem eqv_trans {a b c : Json} (ha : WellFormed a) (hb : WellFormed b) (hc : WellFormed c)
    (hab : a.eqv b = true) (hbc : b.eqv c = true) : a.eqv c = true :=
  eqv_iff.mpr ⟨same_trans ha hb hc (eqv_iff.mp hab).1 (eqv_iff.mp hbc).1, (eqv_iff.mp hab).2⟩

end Json
end Rollout
