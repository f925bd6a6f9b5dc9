import Mathlib.Algebra.Order.Field.Power
import Mathlib.Algebra.Order.Field.Rat
import Mathlib.Data.Nat.Cast.Order.Field
import Mathlib.Tactic.Linarith
import Mathlib.Tactic.FieldSimp
import Mathlib.Tactic.NormNum
import Mathlib.Tactic.Zify
import Rollout.Number.Binary64

/-!
# Rounding to binary64

`Binary64.ofRatio` works on two naturals, and which number it gives depends on
their quotient alone. The quotient `v` fixes the exponent: there is exactly one
`q`, not below the least, at which `v` stays below `2 ^ (q + 53)` and reaches
`2 ^ (q + 52)` unless `q` is the least (`Binary64.IsExponentOf`). The same two
bounds make a canonical number the only one of its size
(`Binary64.eq_of_size_eq`).

Hence a quotient that *is* a number of the format is rounded to itself
(`Binary64.ofRatio_of_size`), however it is written, and whatever is rounded is a
number of the format (`Binary64.canonical_ofRatio`).
-/

namespace Rollout
namespace Binary64

/-- The size `m · 2 ^ q`. -/
def size (m : Nat) (q : Int) : ℚ :=
  m * 2 ^ q

/-! ## The exponent of a size -/

/-- **The exponent at which a size has 53 bits before the point**, or fewer at the
least exponent. -/
structure IsExponentOf (q : Int) (v : ℚ) : Prop where
  least : minExponent ≤ q
  upper : v < 2 ^ (q + 53)
  lower : 2 ^ (q + 52) ≤ v ∨ q = minExponent

theorem two_zpow_le {a b : Int} (h : a ≤ b) : (2 : ℚ) ^ a ≤ 2 ^ b :=
  zpow_le_zpow_right₀ one_le_two h

theorem le_of_two_zpow_lt {a b : Int} (h : (2 : ℚ) ^ a < 2 ^ b) : a < b :=
  (zpow_lt_zpow_iff_right₀ one_lt_two).mp h

/-- **A size has one exponent.** -/
theorem IsExponentOf.unique {q r : Int} {v : ℚ} (hq : IsExponentOf q v) (hr : IsExponentOf r v) :
    q = r := by
  have hle : ∀ {a b : Int}, IsExponentOf a v → IsExponentOf b v → b ≤ a := by
    intro a b ha hb
    rcases hb.lower with h | h
    · have := le_of_two_zpow_lt (lt_of_le_of_lt h ha.upper)
      omega
    · rw [h]
      exact ha.least
  exact le_antisymm (hle hr hq) (hle hq hr)

/-- A canonical number's exponent is that of its size. -/
theorem isExponentOf_size {neg : Bool} {m : Nat} {q : Int} (h : (finite neg m q).Canonical) :
    IsExponentOf q (size m q) := by
  obtain ⟨hm, hq, -, hlow⟩ := h
  have hpos : (0 : ℚ) < 2 ^ q := zpow_pos two_pos q
  refine ⟨hq, ?_, hlow.imp_left (fun hl => ?_)⟩
  · have hm' : (m : ℚ) < 2 ^ 53 := by exact_mod_cast hm
    rw [size, add_comm, zpow_add₀ two_ne_zero]
    exact mul_lt_mul_of_pos_right hm' hpos
  · have hl' : (2 : ℚ) ^ 52 ≤ m := by exact_mod_cast hl
    rw [size, add_comm, zpow_add₀ two_ne_zero]
    exact mul_le_mul_of_nonneg_right hl' hpos.le

/-- **Canonical numbers of one size have one mantissa and one exponent.** -/
theorem eq_of_size_eq {s t : Bool} {m n : Nat} {q r : Int} (hm : (finite s m q).Canonical)
    (hn : (finite t n r).Canonical) (h : size m q = size n r) : m = n ∧ q = r := by
  have hqr : q = r := (isExponentOf_size hm).unique (h ▸ isExponentOf_size hn)
  subst hqr
  have hpos : (2 : ℚ) ^ q ≠ 0 := (zpow_pos two_pos q).ne'
  exact ⟨by exact_mod_cast mul_right_cancel₀ hpos h, rfl⟩

/-- The quotient a number is held as has its size. -/
theorem ratio_size (m : Nat) (q : Int) :
    ((ratio m q).1 : ℚ) / (ratio m q).2 = size m q := by
  unfold ratio size
  split
  · rename_i h
    lift q to Nat using h
    simp
  · rename_i h
    obtain ⟨n, rfl⟩ : ∃ n : Nat, q = -n := ⟨(-q).toNat, by omega⟩
    simp [div_eq_mul_inv]

theorem ratio_snd_pos (m : Nat) (q : Int) : 0 < (ratio m q).2 := by
  unfold ratio
  split
  · exact Nat.one_pos
  · exact Nat.pow_pos Nat.two_pos

/-! ## Scaling -/

/-- Scaled by `q`, a quotient is divided by `2 ^ q`. -/
theorem scaled_div (num den : Nat) (q : Int) :
    ((scaled num den q).1 : ℚ) / (scaled num den q).2 = num / den / 2 ^ q := by
  unfold scaled
  split
  · rename_i h
    lift q to Nat using h
    simp [div_div]
  · rename_i h
    obtain ⟨n, rfl⟩ : ∃ n : Nat, q = -n := ⟨(-q).toNat, by omega⟩
    simp [div_eq_mul_inv, mul_right_comm]

theorem scaled_snd_pos {den : Nat} (num : Nat) (hden : 0 < den) (q : Int) :
    0 < (scaled num den q).2 := by
  unfold scaled
  split
  · exact Nat.mul_pos hden (Nat.pow_pos Nat.two_pos)
  · exact hden

/-- A whole part is bounded as the quotient is. -/
theorem div_lt_iff {a b n : Nat} (hb : 0 < b) : a / b < n ↔ (a : ℚ) / b < n := by
  have hb' : (0 : ℚ) < b := by exact_mod_cast hb
  rw [Nat.div_lt_iff_lt_mul hb, div_lt_iff₀ hb']
  exact_mod_cast Iff.rfl

/-- What remains before the point after scaling, compared with a power of two. -/
theorem scaled_lt_iff {num den : Nat} (hden : 0 < den) (q : Int) (n : Nat) :
    (scaled num den q).1 / (scaled num den q).2 < 2 ^ n
      ↔ (num : ℚ) / den < 2 ^ (q + n) := by
  rw [div_lt_iff (scaled_snd_pos num hden q), scaled_div, div_lt_iff₀ (zpow_pos two_pos q),
    add_comm q, zpow_add₀ two_ne_zero, zpow_natCast]
  norm_cast

theorem le_scaled_iff {num den : Nat} (hden : 0 < den) (q : Int) (n : Nat) :
    2 ^ n ≤ (scaled num den q).1 / (scaled num den q).2
      ↔ (2 : ℚ) ^ (q + n) ≤ num / den := by
  rw [← not_lt, scaled_lt_iff hden, not_lt]

/-! ## Rounding a quotient -/

/-- **The exponent that is found is the quotient's.** -/
theorem isExponentOf_exponentFor {num den : Nat} (hnum : 0 < num) (hden : 0 < den) :
    IsExponentOf (exponentFor num den) ((num : ℚ) / den) := by
  have hnum' : (0 : ℚ) < num := by exact_mod_cast hnum
  have hden' : (0 : ℚ) < den := by exact_mod_cast hden
  -- the quotient lies between the powers of two that its parts' lengths tell
  have hv_up : (num : ℚ) / den < 2 ^ ((num.log2 : Int) - den.log2 + 1) := by
    have h1 : (num : ℚ) < 2 ^ (num.log2 + 1) := by exact_mod_cast Nat.lt_log2_self
    have h2 : (2 : ℚ) ^ den.log2 ≤ den := by exact_mod_cast Nat.log2_self_le hden.ne'
    rw [div_lt_iff₀ hden']
    calc (num : ℚ) < 2 ^ (num.log2 + 1) := h1
      _ = 2 ^ ((num.log2 : Int) - den.log2 + 1) * 2 ^ den.log2 := by
        rw [← zpow_natCast, ← zpow_natCast, ← zpow_add₀ two_ne_zero]
        congr 1
        push_cast
        omega
      _ ≤ 2 ^ ((num.log2 : Int) - den.log2 + 1) * den :=
        mul_le_mul_of_nonneg_left h2 (zpow_pos two_pos _).le
  have hv_low : (2 : ℚ) ^ ((num.log2 : Int) - den.log2 - 1) ≤ num / den := by
    have h1 : (2 : ℚ) ^ num.log2 ≤ num := by exact_mod_cast Nat.log2_self_le hnum.ne'
    have h2 : (den : ℚ) < 2 ^ (den.log2 + 1) := by exact_mod_cast Nat.lt_log2_self
    rw [le_div_iff₀ hden']
    calc (2 : ℚ) ^ ((num.log2 : Int) - den.log2 - 1) * den
        ≤ 2 ^ ((num.log2 : Int) - den.log2 - 1) * 2 ^ (den.log2 + 1) :=
          mul_le_mul_of_nonneg_left h2.le (zpow_pos two_pos _).le
      _ = 2 ^ num.log2 := by
        rw [← zpow_natCast, ← zpow_natCast, ← zpow_add₀ two_ne_zero]
        congr 1
        push_cast
        omega
      _ ≤ num := h1
  unfold exponentFor
  simp only [mantissaBound, Nat.pow_eq, scaled_lt_iff hden]
  -- the first guess is the exponent or one below it
  generalize hq : max ((num.log2 : Int) - den.log2 - 53) minExponent = q
  have hmin : minExponent ≤ q := hq ▸ le_max_right _ _
  have hup : (num.log2 : Int) - den.log2 - 53 ≤ q := hq ▸ le_max_left _ _
  split
  · rename_i h
    refine ⟨hmin, h, ?_⟩
    rcases max_choice ((num.log2 : Int) - den.log2 - 53) minExponent with hc | hc
    · left
      have hle : (2 : ℚ) ^ (q + 52) ≤ 2 ^ ((num.log2 : Int) - den.log2 - 1) :=
        two_zpow_le (by omega)
      exact hle.trans hv_low
    · exact .inr (hq.symm.trans hc)
  · rename_i h
    refine ⟨by omega, hv_up.trans_le (two_zpow_le (by omega)), .inl ?_⟩
    have he : q + 1 + 52 = q + ((53 : Nat) : Int) := by push_cast; omega
    rw [he]
    exact not_lt.mp h

/-- The quotient's parts may be multiplied by one number. -/
theorem roundHalfEven_mul (num den : Nat) {c : Nat} (hc : 0 < c) :
    roundHalfEven (num * c) (den * c) = roundHalfEven num den := by
  unfold roundHalfEven
  simp only [Nat.mul_div_mul_right _ _ hc, Nat.mul_mod_mul_right, ← mul_assoc,
    Nat.mul_lt_mul_right hc]

/-- **Rounding depends on the quotient alone.** -/
theorem roundHalfEven_congr {a b a' b' : Nat} (hb : 0 < b) (hb' : 0 < b')
    (h : (a : ℚ) / b = a' / b') : roundHalfEven a b = roundHalfEven a' b' := by
  have hb₀ : (b : ℚ) ≠ 0 := by exact_mod_cast hb.ne'
  have hb₁ : (b' : ℚ) ≠ 0 := by exact_mod_cast hb'.ne'
  have hcross : a * b' = a' * b := by
    rw [div_eq_div_iff hb₀ hb₁] at h
    exact_mod_cast h
  rw [← roundHalfEven_mul a b hb', ← roundHalfEven_mul a' b' hb, hcross, Nat.mul_comm b b']

/-- A whole quotient is rounded to itself. -/
theorem roundHalfEven_of_div_eq {a b m : Nat} (hb : 0 < b) (h : (a : ℚ) / b = m) :
    roundHalfEven a b = m := by
  have h' : roundHalfEven a b = roundHalfEven m 1 :=
    roundHalfEven_congr hb Nat.one_pos (by rw [h, Nat.cast_one, div_one])
  rw [h']
  simp [roundHalfEven, Nat.mod_one]

theorem le_roundHalfEven (a b : Nat) : a / b ≤ roundHalfEven a b := by
  unfold roundHalfEven
  simp only
  split_ifs <;> omega

theorem roundHalfEven_le (a b : Nat) : roundHalfEven a b ≤ a / b + 1 := by
  unfold roundHalfEven
  simp only
  split_ifs <;> omega

/-- **Which number is nearest depends on the quotient alone.** -/
theorem ofRatio_congr (neg : Bool) {num den num' den' : Nat} (hden : 0 < den) (hden' : 0 < den')
    (h : (num : ℚ) / den = num' / den') : ofRatio neg num den = ofRatio neg num' den' := by
  have hd : (den : ℚ) ≠ 0 := by exact_mod_cast hden.ne'
  have hd' : (den' : ℚ) ≠ 0 := by exact_mod_cast hden'.ne'
  have hzero : num = 0 ↔ num' = 0 := by
    have h0 : (num : ℚ) / den = 0 ↔ (num' : ℚ) / den' = 0 := by rw [h]
    simpa [div_eq_zero_iff, hd, hd'] using h0
  by_cases hn : num = 0
  · rw [ofRatio, ofRatio, if_pos hn, if_pos (hzero.mp hn)]
  · have hn' : num' ≠ 0 := fun e => hn (hzero.mpr e)
    have hq : exponentFor num den = exponentFor num' den' :=
      (isExponentOf_exponentFor (Nat.pos_of_ne_zero hn) hden).unique
        (h ▸ isExponentOf_exponentFor (Nat.pos_of_ne_zero hn') hden')
    have hr := roundHalfEven_congr (scaled_snd_pos num hden (exponentFor num' den'))
      (scaled_snd_pos num' hden' (exponentFor num' den')) (by rw [scaled_div, scaled_div, h])
    rw [ofRatio, ofRatio, if_neg hn, if_neg hn', hq]
    simp only [hr]

/-- **A size of the format is rounded to its number.** -/
theorem ofRatio_of_size {neg : Bool} {m : Nat} {q : Int} (hm : 0 < m)
    (hc : (finite neg m q).Canonical) {num den : Nat} (hden : 0 < den)
    (h : (num : ℚ) / den = size m q) : ofRatio neg num den = finite neg m q := by
  have hpos : (0 : ℚ) < 2 ^ q := zpow_pos two_pos q
  have hd : (0 : ℚ) < den := by exact_mod_cast hden
  have hv : (0 : ℚ) < num / den := by
    rw [h, size]
    exact mul_pos (by exact_mod_cast hm) hpos
  have hnum : 0 < num := by
    have := (div_pos_iff_of_pos_right hd).mp hv
    exact_mod_cast this
  have hq : exponentFor num den = q :=
    (isExponentOf_exponentFor hnum hden).unique (h ▸ isExponentOf_size hc)
  have hr : roundHalfEven (scaled num den q).1 (scaled num den q).2 = m := by
    refine roundHalfEven_of_div_eq (scaled_snd_pos num hden q) ?_
    rw [scaled_div, h, size, mul_div_cancel_right₀ _ hpos.ne']
  have hb : m ≠ mantissaBound := hc.1.ne
  have hmax : ¬maxExponent < q := not_lt.mpr hc.2.2.1
  rw [ofRatio, if_neg hnum.ne', hq]
  simp only [hr, if_neg hb, if_neg hmax]

theorem canonical_zero (neg : Bool) : (zero neg).Canonical :=
  ⟨by decide, le_refl _, by decide, .inr rfl⟩

/-- **What is rounded is a number of the format.** -/
theorem canonical_ofRatio (neg : Bool) (num : Nat) {den : Nat} (hden : 0 < den) :
    (ofRatio neg num den).Canonical := by
  by_cases hn : num = 0
  · rw [ofRatio, if_pos hn]
    exact canonical_zero neg
  · have he := isExponentOf_exponentFor (Nat.pos_of_ne_zero hn) hden
    rw [ofRatio, if_neg hn]
    generalize exponentFor num den = q at he
    have hup : (scaled num den q).1 / (scaled num den q).2 < 2 ^ 53 :=
      (scaled_lt_iff hden q 53).mpr he.upper
    have hle := roundHalfEven_le (scaled num den q).1 (scaled num den q).2
    have hge := le_roundHalfEven (scaled num den q).1 (scaled num den q).2
    have hlow : 2 ^ 52 ≤ roundHalfEven (scaled num den q).1 (scaled num den q).2
        ∨ q = minExponent :=
      he.lower.imp_left (fun h => ((le_scaled_iff hden q 52).mpr h).trans hge)
    simp only
    generalize roundHalfEven (scaled num den q).1 (scaled num den q).2 = m at hle hlow
    have hmin := he.least
    by_cases hb : m = mantissaBound
    · rw [if_pos hb]
      simp only
      split
      · trivial
      · exact ⟨by decide, by omega, by omega, .inl (le_refl _)⟩
    · rw [if_neg hb]
      simp only
      split
      · trivial
      · have hb' : m ≠ 2 ^ 53 := hb
        exact ⟨show m < 2 ^ 53 by omega, hmin, by omega, hlow⟩

end Binary64
end Rollout
