import Rollout.Text.SurrogatePair

/-!
# Texts without pairs to join

Joining makes a text shorter wherever it finds a pair, so a text that joining
leaves as it is has none: no two neighbours spell a character
(`Text.joined_cons_cons_iff`). And it puts a character of a high number there, so
that a text of ordinary characters comes of no text but itself (`Text.eq_of_joined`).
-/

namespace Rollout

/-- **The number of a number's code point is the number.** -/
theorem CodePoint.value_ofValue {n : Nat} (hn : n < 0x110000) : (ofValue n).value = n := by
  unfold ofValue ofValue?
  split
  · rename_i h
    show 0xD800 + (n - 0xD800) = n
    omega
  · rename_i h
    show (Char.ofNat n).toNat = n
    have hv : n.isValidChar := by
      unfold Nat.isValidChar
      omega
    rw [Char.ofNat, dif_pos hv]
    rfl

/-- The character of a pair is beyond the first plane. -/
theorem SurrogatePair.le_value_of_char? {high low : Nat} {p : CodePoint}
    (h : char? high low = some p) : 0x10000 ≤ p.value := by
  unfold char? at h
  split at h
  · rename_i hpair
    rw [isHigh, isLow, Bool.and_eq_true, Bool.and_eq_true, Bool.and_eq_true] at hpair
    simp only [decide_eq_true_eq] at hpair
    have hmax : value high low < 0x110000 := by
      unfold value
      omega
    rw [← Option.some.inj h, CodePoint.value_ofValue hmax]
    unfold value
    omega
  · cases h

namespace Text

theorem length_joined_le (s : Text) : (joined s).length ≤ s.length := by
  induction s using joined.induct with
  | case1 p q rest c h ih =>
    rw [joined, h]
    exact Nat.succ_le_succ (Nat.le_trans ih (Nat.le_succ _))
  | case2 p q rest h ih =>
    rw [joined, h]
    exact Nat.succ_le_succ ih
  | case3 p => exact Nat.le_refl _
  | case4 => exact Nat.le_refl _

/-- **A text stays as it is** exactly if its first two code points are no pair and
the rest stays as it is. -/
theorem joined_cons_cons_iff {p q : CodePoint} {s : Text} :
    joined (p :: q :: s) = p :: q :: s
      ↔ SurrogatePair.char? p.value q.value = none ∧ joined (q :: s) = q :: s := by
  rw [joined]
  cases h : SurrogatePair.char? p.value q.value with
  | none => simp
  | some c =>
    refine iff_of_false (fun heq => ?_) (by simp)
    have hlen := length_joined_le s
    rw [(List.cons.inj heq).2] at hlen
    exact Nat.not_succ_le_self _ hlen

/-- What stands behind the first code point stays as it is too. -/
theorem joined_of_cons {p : CodePoint} {s : Text} (h : joined (p :: s) = p :: s) :
    joined s = s := by
  cases s with
  | nil => rfl
  | cons q s => exact (joined_cons_cons_iff.mp h).2

/-- **A text of ordinary characters comes of itself** and of no other text. -/
theorem eq_of_joined {s t : Text} (h : joined s = t) (ht : ∀ p ∈ t, p.value < 0x10000) :
    s = t := by
  induction s using joined.induct generalizing t with
  | case1 p q rest c hc ih =>
    rw [joined, hc] at h
    subst h
    have hvalue := SurrogatePair.le_value_of_char? hc
    exact absurd (ht c List.mem_cons_self) (Nat.not_lt.mpr hvalue)
  | case2 p q rest hc ih =>
    rw [joined, hc] at h
    subst h
    rw [← ih rfl fun x hx => ht x (List.mem_cons_of_mem _ hx)]
  | case3 p => exact h
  | case4 => exact h

end Text
end Rollout
