import Mathlib.Tactic.Ring
import Rollout.Number.Shortest
import Rollout.Proofs.Number.Rounding

/-!
# Decimals and the numbers they are read as

`Binary64.ofDecimal` decides decimals far outside the format's range by where
their first digit stands, which a power of ten moved between digits and exponent
does not change. Hence zeros at the end of the digits can be traded for the
exponent (`Binary64.ofDecimal_mul_pow`), and this is all that a layout of digits
does.

The shortest decimal of a number reads back as the number
(`Binary64.read_shortest`): every candidate was read before it was taken, and
behind the candidates stands the exact expansion, whose size is the number's.
-/

namespace Rollout
namespace Binary64

/-! ## How many digits -/

theorem decimalLength_pos (n : Nat) : 0 < decimalLength n :=
  Nat.length_toDigits_pos

theorem decimalLength_le_iff {n k : Nat} (hk : 0 < k) : decimalLength n ≤ k ↔ n < 10 ^ k :=
  Nat.length_toDigits_le_iff (by decide) hk

theorem lt_pow_decimalLength (n : Nat) : n < 10 ^ decimalLength n :=
  (decimalLength_le_iff (decimalLength_pos n)).mp (le_refl _)

/-- A number has more digits than the powers of ten it reaches. -/
theorem lt_decimalLength_of_pow_le {n k : Nat} (h : 10 ^ k ≤ n) : k < decimalLength n := by
  by_contra hlt
  have hmono : 10 ^ decimalLength n ≤ 10 ^ k := Nat.pow_le_pow_right (by decide) (not_lt.mp hlt)
  have := lt_pow_decimalLength n
  omega

theorem pow_pred_decimalLength_le {n : Nat} (hn : 0 < n) : 10 ^ (decimalLength n - 1) ≤ n := by
  by_contra hlt
  rcases Nat.eq_zero_or_pos (decimalLength n - 1) with h | h
  · rw [h, Nat.pow_zero] at hlt
    omega
  · have := (decimalLength_le_iff h).mpr (not_le.mp hlt)
    omega

/-- **Zeros put behind the digits of a number.** -/
theorem decimalLength_mul_pow {n : Nat} (hn : 0 < n) (k : Nat) :
    decimalLength (n * 10 ^ k) = decimalLength n + k := by
  have hpos := decimalLength_pos n
  refine le_antisymm ?_ ?_
  · rw [decimalLength_le_iff (by omega), Nat.pow_add]
    exact Nat.mul_lt_mul_of_pos_right (lt_pow_decimalLength n) (Nat.pow_pos (by decide))
  · have hlow : 10 ^ (decimalLength n - 1 + k) ≤ n * 10 ^ k := by
      rw [Nat.pow_add]
      exact Nat.mul_le_mul_right _ (pow_pred_decimalLength_le hn)
    have := lt_decimalLength_of_pow_le hlow
    omega

/-! ## Reading a decimal -/

/-- The decimal is near enough to the format's range to be rounded. -/
structure IsInRange (digits : Nat) (exponent : Int) : Prop where
  upper : exponent + decimalLength digits ≤ 400
  lower : -400 ≤ exponent + decimalLength digits

/-- **In range a decimal is rounded as its quotient is.** -/
theorem ofDecimal_eq_ofRatio (neg : Bool) {digits : Nat} {exponent : Int} (hd : digits ≠ 0)
    (h : IsInRange digits exponent) {num den : Nat} (hden : 0 < den)
    (hv : (num : ℚ) / den = digits * 10 ^ exponent) :
    ofDecimal neg digits exponent = ofRatio neg num den := by
  rw [ofDecimal, if_neg hd, if_neg (not_lt.mpr h.upper), if_neg (not_lt.mpr h.lower)]
  split
  · rename_i he
    lift exponent to Nat using he
    refine ofRatio_congr neg Nat.one_pos hden ?_
    rw [hv]
    simp
  · rename_i he
    obtain ⟨n, rfl⟩ : ∃ n : Nat, exponent = -n := ⟨(-exponent).toNat, by omega⟩
    refine ofRatio_congr neg (Nat.pow_pos (by decide)) hden ?_
    rw [hv]
    simp [div_eq_mul_inv]

/-- Every decimal has a quotient. -/
theorem exists_ratio_eq (digits : Nat) (exponent : Int) :
    ∃ num den : Nat, 0 < den ∧ (num : ℚ) / den = digits * 10 ^ exponent := by
  rcases le_or_gt 0 exponent with he | he
  · lift exponent to Nat using he
    exact ⟨digits * 10 ^ exponent, 1, Nat.one_pos, by simp⟩
  · obtain ⟨n, rfl⟩ : ∃ n : Nat, exponent = -n := ⟨(-exponent).toNat, by omega⟩
    exact ⟨digits, 10 ^ n, Nat.pow_pos (by decide), by simp [div_eq_mul_inv]⟩

/-- **Zeros behind the digits count as much as in the exponent.** -/
theorem ofDecimal_mul_pow (neg : Bool) (digits k : Nat) (exponent : Int) :
    ofDecimal neg (digits * 10 ^ k) exponent = ofDecimal neg digits (exponent + k) := by
  rcases Nat.eq_zero_or_pos digits with rfl | hd
  · simp [ofDecimal]
  have hd' : digits * 10 ^ k ≠ 0 := (Nat.mul_pos hd (Nat.pow_pos (by decide))).ne'
  have hplace : exponent + decimalLength (digits * 10 ^ k)
      = exponent + k + decimalLength digits := by
    rw [decimalLength_mul_pow hd]
    push_cast
    omega
  by_cases hup : 400 < exponent + k + decimalLength digits
  · rw [ofDecimal, ofDecimal, if_neg hd', if_neg hd.ne', if_pos (hplace ▸ hup), if_pos hup]
  by_cases hlow : exponent + k + decimalLength digits < -400
  · rw [ofDecimal, ofDecimal, if_neg hd', if_neg hd.ne', hplace, if_neg hup, if_neg hup,
      if_pos hlow, if_pos hlow]
  obtain ⟨num, den, hden, hv⟩ := exists_ratio_eq digits (exponent + k)
  have hv' : (num : ℚ) / den = ((digits * 10 ^ k : Nat) : ℚ) * 10 ^ exponent := by
    rw [hv, zpow_add₀ (by norm_num), zpow_natCast]
    push_cast
    ring
  rw [ofDecimal_eq_ofRatio neg hd' ⟨by omega, by omega⟩ hden hv',
    ofDecimal_eq_ofRatio neg hd.ne' ⟨by omega, by omega⟩ hden hv]

/-- **What a decimal is read as is a number of the format.** -/
theorem canonical_ofDecimal (neg : Bool) (digits : Nat) (exponent : Int) :
    (ofDecimal neg digits exponent).Canonical := by
  unfold ofDecimal
  split_ifs
  · exact canonical_zero neg
  · trivial
  · exact canonical_zero neg
  · exact canonical_ofRatio neg _ Nat.one_pos
  · exact canonical_ofRatio neg _ (Nat.pow_pos (by decide))

/-! ## The shortest decimal -/

/-- A candidate is taken only if it reads back. -/
theorem read_of_nearest? {neg : Bool} {m : Nat} {q : Int} {n : Nat} {d : Decimal}
    (h : nearest? neg m q n = some d) : d.read neg = finite neg m q := by
  unfold nearest? at h
  simp only at h
  split at h
  · rename_i hb ha
    have hb := beq_iff_eq.mp hb
    have ha := beq_iff_eq.mp ha
    split at h
    · exact Option.some.inj h ▸ hb
    · exact Option.some.inj h ▸ ha
    · split at h
      · exact Option.some.inj h ▸ hb
      · exact Option.some.inj h ▸ ha
  · rename_i hb _
    exact Option.some.inj h ▸ beq_iff_eq.mp hb
  · rename_i _ ha
    exact Option.some.inj h ▸ beq_iff_eq.mp ha
  · cases h

/-- The expansion has the number's size. -/
theorem expansion_size (m : Nat) (q : Int) :
    ((expansion m q).digits : ℚ) * 10 ^ (expansion m q).exponent = size m q := by
  unfold expansion size
  split
  · rename_i h
    lift q to Nat using h
    simp
  · rename_i h
    obtain ⟨n, rfl⟩ : ∃ n : Nat, q = -n := ⟨(-q).toNat, by omega⟩
    have hten : (10 : ℚ) ^ n = 5 ^ n * 2 ^ n := by rw [← mul_pow]; norm_num
    have h5 : (5 : ℚ) ^ n ≠ 0 := pow_ne_zero n (by norm_num)
    have h2 : (2 : ℚ) ^ n ≠ 0 := pow_ne_zero n (by norm_num)
    simp only [Nat.pow_eq, neg_neg, Int.toNat_natCast, zpow_neg, zpow_natCast, hten]
    push_cast
    field_simp

/-- Three bits are less than a decimal digit. -/
theorem two_pow_le_ten_pow {n k : Nat} (h : n ≤ 3 * k) : 2 ^ n ≤ 10 ^ k := by
  calc 2 ^ n ≤ 2 ^ (3 * k) := Nat.pow_le_pow_right (by decide) h
    _ = (2 ^ 3) ^ k := Nat.pow_mul 2 3 k
    _ ≤ 10 ^ k := Nat.pow_le_pow_left (by decide) k

/-- A mantissa takes no more than eighteen digits. -/
theorem decimalLength_mul_le {m n k : Nat} (hm : m < 2 ^ 53) (hn : n ≤ 10 ^ k) :
    decimalLength (m * n) ≤ 18 + k := by
  rw [decimalLength_le_iff (by omega), Nat.pow_add]
  exact Nat.mul_lt_mul_of_lt_of_le (hm.trans_le (two_pow_le_ten_pow (by decide))) hn
    (Nat.pow_pos (by decide))

/-- The expansion of a number of the format is in range. -/
theorem isInRange_expansion {neg : Bool} {m : Nat} {q : Int} (hm : 0 < m)
    (h : (finite neg m q).Canonical) :
    IsInRange (expansion m q).digits (expansion m q).exponent := by
  obtain ⟨hm', hmin, hmax, -⟩ := h
  have hb : m < 2 ^ 53 := hm'
  unfold expansion
  split
  · rename_i hq
    have hq' : q.toNat ≤ 3 * 324 := by
      have : maxExponent = 971 := rfl
      omega
    have hlen : decimalLength (m * Nat.pow 2 q.toNat) ≤ 18 + 324 :=
      decimalLength_mul_le hb (two_pow_le_ten_pow hq')
    exact ⟨by simp only; omega, by simp only; omega⟩
  · rename_i hq
    have hq' : (-q).toNat ≤ 1074 := by
      have : minExponent = -1074 := rfl
      omega
    obtain ⟨n, rfl⟩ : ∃ n : Nat, q = -n := ⟨(-q).toNat, by omega⟩
    rw [neg_neg, Int.toNat_natCast] at hq' ⊢
    have hup : decimalLength (m * Nat.pow 5 n) ≤ 18 + n :=
      decimalLength_mul_le hb (Nat.pow_le_pow_left (by decide) n)
    have hlow : n ≤ 400 + decimalLength (m * Nat.pow 5 n) := by
      by_contra hlt
      obtain ⟨j, hj⟩ := Nat.exists_eq_add_of_lt (not_le.mp hlt)
      -- a number of so few digits would be less than its factor of fives
      have hsmall : 5 ^ n < 10 ^ decimalLength (m * Nat.pow 5 n) :=
        lt_of_le_of_lt (Nat.le_mul_of_pos_left _ hm) (lt_pow_decimalLength _)
      have h2 : 2 ^ n ≤ 10 ^ (400 + j + 1) := two_pow_le_ten_pow (by omega)
      have hprod := Nat.mul_lt_mul_of_lt_of_le hsmall h2 (Nat.pow_pos (by decide))
      rw [← Nat.mul_pow, ← Nat.pow_add] at hprod
      have := (Nat.pow_lt_pow_iff_right (by decide)).mp hprod
      omega
    exact ⟨by simp only; omega, by simp only; omega⟩

/-- The expansion reads back. -/
theorem read_expansion {neg : Bool} {m : Nat} {q : Int} (hm : 0 < m)
    (h : (finite neg m q).Canonical) : (expansion m q).read neg = finite neg m q := by
  have hpos : (0 : ℚ) < size m q := mul_pos (by exact_mod_cast hm) (zpow_pos two_pos q)
  have hd : (expansion m q).digits ≠ 0 := by
    intro h0
    have := expansion_size m q
    rw [h0, Nat.cast_zero, zero_mul] at this
    exact hpos.ne this
  obtain ⟨num, den, hden, hv⟩ :=
    exists_ratio_eq (expansion m q).digits (expansion m q).exponent
  rw [Decimal.read, ofDecimal_eq_ofRatio neg hd (isInRange_expansion hm h) hden hv]
  exact ofRatio_of_size hm h hden (hv.trans (expansion_size m q))

/-- **The shortest decimal of a number reads back as the number.** -/
theorem read_shortest {neg : Bool} {m : Nat} {q : Int} (hm : 0 < m)
    (h : (finite neg m q).Canonical) : (shortest neg m q).read neg = finite neg m q := by
  unfold shortest
  split
  · rename_i d hd
    obtain ⟨n, -, hn⟩ := List.exists_of_findSome?_eq_some hd
    exact read_of_nearest? hn
  · exact read_expansion hm h

end Binary64
end Rollout
