import Rollout.Json.Parser
import Rollout.Proofs.Number.Decimal

/-!
# Numerals read back

An integer is written in decimal digits, a number with a point in one of four
layouts of its shortest digits. Either is read as the value that was written
(`Json.scalar?_int`, `Json.scalar?_float`), provided that what stands behind it
cannot be taken for more of it (`Json.IsBehind`).

A layout of digits is read as those digits at that point, whatever the layout
(`Json.number_layout`). Zeros that only fill up are traded for the exponent.
-/

namespace Rollout
namespace Json

open Binary64 (ofDecimal signed layout dropTrailingZeros decimalLength)

/-- **What can stand behind a value**: nothing, or what goes on with the list or
object the value is in, or closes it. -/
def IsBehind : Text → Prop
  | [] => True
  | p :: _ => p = .char ',' ∨ p = .char ']' ∨ p = .char '\x7d'

/-- The text does not go on with a digit. -/
def NoDigit (t : Text) : Prop :=
  ∀ p ∈ t.head?, p.is Char.isDigit = false

theorem noDigit_cons {c : Char} (t : Text) (h : c.isDigit = false) : NoDigit (.char c :: t) := by
  intro p hp
  obtain rfl := Option.some.inj hp
  exact h

theorem IsBehind.noDigit {t : Text} (h : IsBehind t) : NoDigit t := by
  cases t with
  | nil => intro p hp; cases hp
  | cons p t => rcases h with rfl | rfl | rfl <;> exact noDigit_cons t (by decide)

/-! ## Digits -/

/-- **A run of digits is read as far as it goes.** -/
theorem spanDigits_append {ds : List Char} {t : Text} (hds : ∀ c ∈ ds, c.isDigit = true)
    (ht : NoDigit t) : spanDigits (Text.ofChars ds ++ t) = (ds, t) := by
  have htake : t.takeWhile (·.is Char.isDigit) = [] ∧ t.dropWhile (·.is Char.isDigit) = t := by
    cases t with
    | nil => exact ⟨rfl, rfl⟩
    | cons p t =>
      have hp := ht p rfl
      simp [hp]
  have hall : ∀ p ∈ Text.ofChars ds, p.is Char.isDigit = true := by
    intro p hp
    obtain ⟨c, hc, rfl⟩ := List.mem_map.mp hp
    exact hds c hc
  unfold spanDigits
  rw [List.takeWhile_append_of_pos hall, List.dropWhile_append_of_pos hall, htake.1, htake.2,
    List.append_nil, Text.ofChars, List.map_map]
  refine Prod.ext ?_ rfl
  exact (List.map_congr_left fun _ _ => rfl).trans (List.map_id ds)

/-- The digits that can stand before a point: a zero alone or a run that starts
otherwise. -/
def IsWhole (ds : List Char) : Prop :=
  ds = ['0'] ∨ (∀ c ∈ ds, c.isDigit = true) ∧ ∃ c cs, ds = c :: cs ∧ c ≠ '0'

theorem wholeDigits?_append {ds : List Char} {t : Text} (h : IsWhole ds) (ht : NoDigit t) :
    wholeDigits? (Text.ofChars ds ++ t) = some (ds, t) := by
  rcases h with rfl | ⟨hd, c, cs, rfl, hc⟩
  · rfl
  · unfold wholeDigits?
    split
    · rename_i heq
      exact absurd (CodePoint.char.inj (List.cons.inj heq).1) hc
    · rw [spanDigits_append hd ht]

theorem fraction_append {fs : List Char} {t : Text} (hne : fs ≠ [])
    (hfs : ∀ c ∈ fs, c.isDigit = true) (ht : NoDigit t) :
    fraction (.char '.' :: (Text.ofChars fs ++ t)) = (fs, t) := by
  unfold fraction
  simp only
  rw [spanDigits_append hfs ht]
  cases fs with
  | nil => exact absurd rfl hne
  | cons c cs => rfl

theorem IsBehind.fraction {t : Text} (h : IsBehind t) : Json.fraction t = ([], t) := by
  cases t with
  | nil => rfl
  | cons p t => rcases h with rfl | rfl | rfl <;> rfl

theorem IsBehind.exponent? {t : Text} (h : IsBehind t) : Json.exponent? t = none := by
  cases t with
  | nil => rfl
  | cons p t => rcases h with rfl | rfl | rfl <;> rfl

/-- An exponent with its sign. -/
theorem exponent?_append {es : List Char} {t : Text} (neg : Bool) (hne : es ≠ [])
    (hes : ∀ c ∈ es, c.isDigit = true) (ht : NoDigit t) :
    exponent? (.char 'e' :: .char (if neg then '-' else '+') :: (Text.ofChars es ++ t))
      = some (signed neg (digitsValue es), t) := by
  have hdigits : ∀ b, exponentDigits? b (Text.ofChars es ++ t)
      = some (signed b (digitsValue es), t) := by
    intro b
    unfold exponentDigits?
    rw [spanDigits_append hes ht]
    cases es with
    | nil => exact absurd rfl hne
    | cons c cs => rfl
  cases neg
  · exact hdigits false
  · exact hdigits true

theorem digitsValue_append (as bs : List Char) :
    digitsValue (as ++ bs) = digitsValue as * 10 ^ bs.length + digitsValue bs := by
  rw [digitsValue, Nat.ofDigitChars_append, Nat.ofDigitChars_eq_ofDigitChars_zero, Nat.mul_comm]
  rfl

theorem digitsValue_replicate (n : Nat) : digitsValue (List.replicate n '0') = 0 := by
  rw [digitsValue, Nat.ofDigitChars_replicate_zero, Nat.mul_zero]

theorem digitsValue_toDigits (n : Nat) : digitsValue (Nat.toDigits 10 n) = n :=
  Nat.ofDigitChars_ten_toDigits

theorem isDigit_of_mem_toDigits {n : Nat} {c : Char} (h : c ∈ Nat.toDigits 10 n) :
    c.isDigit = true :=
  Nat.isDigit_of_mem_toDigits (by decide) (by decide) h

theorem digitChar_ne_zero : ∀ n, n < 10 → 0 < n → n.digitChar ≠ '0' := by
  decide

/-- The digits of a number that is no zero start with none. -/
theorem exists_toDigits_eq_cons {n : Nat} (hn : 0 < n) :
    ∃ c cs, Nat.toDigits 10 n = c :: cs ∧ c ≠ '0' := by
  induction n using Nat.strong_induction_on with
  | _ n ih =>
    rcases Nat.lt_or_ge n 10 with h | h
    · exact ⟨n.digitChar, [], Nat.toDigits_of_lt_base h, digitChar_ne_zero n h hn⟩
    · obtain ⟨c, cs, heq, hc⟩ := ih (n / 10) (by omega) (by omega)
      refine ⟨c, cs ++ [(n % 10).digitChar], ?_, hc⟩
      rw [Nat.toDigits_of_base_le (by decide) h, heq]
      rfl

theorem isWhole_toDigits (n : Nat) : IsWhole (Nat.toDigits 10 n) := by
  rcases Nat.eq_zero_or_pos n with rfl | hn
  · exact .inl rfl
  · exact .inr ⟨fun c hc => isDigit_of_mem_toDigits hc, exists_toDigits_eq_cons hn⟩

/-! ## Numbers behind their sign -/

/-- **Digits alone are an integer.** -/
theorem number_whole (neg : Bool) {ds : List Char} {t : Text} (h : IsWhole ds)
    (hlen : ds.length ≤ maxDigits) (ht : IsBehind t) :
    number neg (Text.ofChars ds ++ t) = some (int (signed neg (digitsValue ds)), t) := by
  simp [number, wholeDigits?_append h ht.noDigit, ht.fraction, ht.exponent?, hlen]

/-- Too many digits are no number. -/
theorem number_eq_none (neg : Bool) {ds : List Char} {t : Text} (h : IsWhole ds)
    (hlen : maxDigits < ds.length) (ht : IsBehind t) :
    number neg (Text.ofChars ds ++ t) = none := by
  simp [number, wholeDigits?_append h ht.noDigit, ht.fraction, ht.exponent?, hlen]

/-- **Digits around a point.** -/
theorem number_point (neg : Bool) {ds fs : List Char} {t : Text} (h : IsWhole ds) (hne : fs ≠ [])
    (hfs : ∀ c ∈ fs, c.isDigit = true) (ht : IsBehind t) :
    number neg (Text.ofChars ds ++ .char '.' :: (Text.ofChars fs ++ t))
      = some (float (ofDecimal neg (digitsValue (ds ++ fs)) (-(fs.length : Int))), t) := by
  have hpoint : NoDigit (.char '.' :: (Text.ofChars fs ++ t)) := noDigit_cons _ (by decide)
  simp [number, wholeDigits?_append h hpoint, fraction_append hne hfs ht.noDigit, ht.exponent?, hne]

/-- **Digits with an exponent**, with or without a point. -/
theorem number_exponent (neg down : Bool) {ds fs es : List Char} {t : Text} (h : IsWhole ds)
    (hfs : ∀ c ∈ fs, c.isDigit = true) (hne : es ≠ []) (hes : ∀ c ∈ es, c.isDigit = true)
    (ht : IsBehind t) :
    number neg (Text.ofChars (ds ++ (if fs = [] then [] else '.' :: fs) ++
        'e' :: (if down then '-' else '+') :: es) ++ t)
      = some (float (ofDecimal neg (digitsValue (ds ++ fs))
          (signed down (digitsValue es) - fs.length)), t) := by
  have hexp := exponent?_append down hne hes ht.noDigit
  have hmark : NoDigit (.char 'e' :: .char (if down then '-' else '+') :: (Text.ofChars es ++ t)) :=
    noDigit_cons _ (by decide)
  have hpoint : ∀ u, NoDigit (.char '.' :: u) := fun u => noDigit_cons u (by decide)
  by_cases hf : fs = []
  · subst hf
    have hnone : fraction (.char 'e' :: .char (if down then '-' else '+') ::
        (Text.ofChars es ++ t)) = ([], _) := rfl
    have hw := wholeDigits?_append h hmark
    simp only [Text.ofChars] at hexp hnone hw
    simp [number, Text.ofChars, hw, hnone, hexp]
  · have hsome := fraction_append hf hfs hmark
    have hw := wholeDigits?_append h (hpoint (Text.ofChars fs ++ .char 'e' ::
      .char (if down then '-' else '+') :: (Text.ofChars es ++ t)))
    simp only [Text.ofChars] at hexp hsome hw
    simp [number, Text.ofChars, hf, hw, hsome, hexp]

/-! ## Layouts -/

/-- Digits that say as much as they can: none of them is a zero at the front. -/
structure IsSignificant (ds : List Char) : Prop where
  digits : ∀ c ∈ ds, c.isDigit = true
  front : ∃ c cs, ds = c :: cs ∧ c ≠ '0'

theorem IsSignificant.isWhole {ds : List Char} (h : IsSignificant ds) : IsWhole ds :=
  .inr ⟨h.digits, h.front⟩

theorem IsSignificant.take {ds : List Char} (h : IsSignificant ds) {n : Nat} (hn : 0 < n) :
    IsSignificant (ds.take n) := by
  obtain ⟨c, cs, rfl, hc⟩ := h.front
  obtain ⟨k, rfl⟩ := Nat.exists_eq_succ_of_ne_zero hn.ne'
  exact ⟨fun d hd => h.digits d (List.mem_of_mem_take hd), c, cs.take k, rfl, hc⟩

theorem isDigit_of_mem_replicate {n : Nat} {c : Char} (h : c ∈ List.replicate n '0') :
    c.isDigit = true := by
  rw [List.eq_of_mem_replicate h]
  decide

theorem signed_natAbs (e : Int) : signed (decide (e < 0)) e.natAbs = e := by
  unfold signed
  split
  · rename_i h
    have := of_decide_eq_true h
    omega
  · rename_i h
    have : ¬e < 0 := fun h' => h (decide_eq_true h')
    omega

section Layouts

variable (neg : Bool) {ds : List Char} {t : Text} (h : IsSignificant ds) (ht : IsBehind t)

include h ht

/-- A zero, the point, and zeros up to the digits. -/
theorem number_zeros_before (z : Nat) :
    number neg (Text.ofChars ('0' :: '.' :: (List.replicate z '0' ++ ds)) ++ t)
      = some (float (ofDecimal neg (digitsValue ds) (-(z : Int) - ds.length)), t) := by
  obtain ⟨c, cs, rfl, -⟩ := h.front
  have hfs : ∀ d ∈ List.replicate z '0' ++ c :: cs, d.isDigit = true := by
    intro d hd
    exact (List.mem_append.mp hd).elim isDigit_of_mem_replicate (h.digits d)
  have hval : digitsValue (['0'] ++ (List.replicate z '0' ++ c :: cs))
      = digitsValue (c :: cs) := by
    rw [digitsValue_append, digitsValue_append, digitsValue_replicate, Nat.zero_mul, Nat.zero_add]
    exact (congrArg (· + _) (Nat.zero_mul _)).trans (Nat.zero_add _)
  have hexp : -((List.replicate z '0' ++ c :: cs).length : Int)
      = -(z : Int) - (c :: cs).length := by
    rw [List.length_append, List.length_replicate]
    push_cast
    omega
  have hread := number_point neg (.inl rfl) (by simp) hfs ht
  rw [hval, hexp] at hread
  exact hread

/-- The digits, zeros up to the point, and a zero behind it. -/
theorem number_zeros_behind (z : Nat) :
    number neg (Text.ofChars (ds ++ List.replicate z '0' ++ ['.', '0']) ++ t)
      = some (float (ofDecimal neg (digitsValue ds) z), t) := by
  have hwhole : IsWhole (ds ++ List.replicate z '0') := by
    obtain ⟨c, cs, rfl, hc⟩ := h.front
    refine .inr ⟨fun d hd => ?_, c, _, rfl, hc⟩
    exact (List.mem_append.mp hd).elim (h.digits d) isDigit_of_mem_replicate
  have hval : digitsValue (ds ++ List.replicate z '0' ++ ['0'])
      = digitsValue ds * 10 ^ (z + 1) := by
    rw [List.append_assoc, ← List.replicate_succ', digitsValue_append, digitsValue_replicate,
      List.length_replicate, Nat.add_zero]
  have hexp : -((['0'] : List Char).length : Int) + ((z + 1 : Nat) : Int) = z := by
    rw [List.length_singleton]
    push_cast
    omega
  have hread := number_point neg hwhole (List.cons_ne_nil '0' [])
    (List.forall_mem_singleton.mpr rfl) ht
  rw [hval, Binary64.ofDecimal_mul_pow, hexp] at hread
  simpa [Text.ofChars] using hread

/-- The point among the digits. -/
theorem number_point_within {n : Nat} (hn : 0 < n) (hlen : n < ds.length) :
    number neg (Text.ofChars (ds.take n ++ '.' :: ds.drop n) ++ t)
      = some (float (ofDecimal neg (digitsValue ds) (n - ds.length)), t) := by
  have hne : ds.drop n ≠ [] := by
    rw [ne_eq, List.drop_eq_nil_iff]
    omega
  have hexp : -((ds.drop n).length : Int) = n - ds.length := by
    rw [List.length_drop]
    omega
  have hread := number_point neg (h.take hn).isWhole hne
    (fun c hc => h.digits c (List.mem_of_mem_drop hc)) ht
  rw [List.take_append_drop, hexp] at hread
  simpa [Text.ofChars] using hread

/-- The point behind the first digit, and an exponent. -/
theorem number_scientific (e : Int) (z : Nat) :
    number neg (Text.ofChars (ds.take 1 ++ (if ds.length ≤ 1 then [] else '.' :: ds.drop 1) ++
        'e' :: (if e < 0 then '-' else '+') ::
          (List.replicate z '0' ++ Nat.toDigits 10 e.natAbs)) ++ t)
      = some (float (ofDecimal neg (digitsValue ds) (e + 1 - ds.length)), t) := by
  have hpos : 0 < ds.length := by
    obtain ⟨c, cs, rfl, -⟩ := h.front
    exact Nat.succ_pos _
  have hes : ∀ c ∈ List.replicate z '0' ++ Nat.toDigits 10 e.natAbs, c.isDigit = true := by
    intro c hc
    exact (List.mem_append.mp hc).elim isDigit_of_mem_replicate isDigit_of_mem_toDigits
  have hne : List.replicate z '0' ++ Nat.toDigits 10 e.natAbs ≠ [] :=
    List.append_ne_nil_of_right_ne_nil _ Nat.toDigits_ne_nil
  have hval : digitsValue (List.replicate z '0' ++ Nat.toDigits 10 e.natAbs) = e.natAbs := by
    rw [digitsValue_append, digitsValue_replicate, digitsValue_toDigits, Nat.zero_mul, Nat.zero_add]
  have hexp : e - ((ds.drop 1).length : Int) = e + 1 - ds.length := by
    rw [List.length_drop]
    omega
  have hfs : ∀ c ∈ ds.drop 1, c.isDigit = true := fun c hc => h.digits c (List.mem_of_mem_drop hc)
  have hread := number_exponent neg (decide (e < 0)) (h.take Nat.one_pos).isWhole hfs hne hes ht
  rw [hval, signed_natAbs, List.take_append_drop, hexp] at hread
  have hdrop : (ds.drop 1 = []) = (ds.length ≤ 1) := propext List.drop_eq_nil_iff
  simpa only [hdrop, decide_eq_true_eq] using hread

/-- **A layout is read as its digits at its point.** -/
theorem number_layout (point : Int) :
    number neg (Text.ofChars (layout documentForm ds point) ++ t)
      = some (float (ofDecimal neg (digitsValue ds) (point - ds.length)), t) := by
  unfold layout
  split
  · split
    · rename_i hpoint
      obtain ⟨z, rfl⟩ : ∃ z : Nat, point = -z := ⟨(-point).toNat, by omega⟩
      rw [neg_neg, Int.toNat_natCast]
      exact number_zeros_before neg h ht z
    · rename_i hpoint
      lift point to Nat using by omega
      rw [Int.toNat_natCast]
      split
      · rename_i hlen
        rw [number_zeros_behind neg h ht, Nat.cast_sub hlen]
      · rename_i hlen
        exact number_point_within neg h ht (by omega) (by omega)
  · have hread := number_scientific neg h ht (point - 1)
      (documentForm.exponentWidth - (Nat.toDigits 10 (point - 1).natAbs).length)
    rwa [Int.sub_add_cancel] at hread

end Layouts

/-! ## Numerals as values -/

/-- What is a number starts with a digit. -/
theorem exists_digit_of_number {neg : Bool} {t : Text} {r : Json × Text}
    (h : number neg t = some r) : ∃ c u, t = .char c :: u ∧ c.isDigit = true := by
  unfold number at h
  obtain ⟨⟨ds, rest⟩, hw, -⟩ := Option.bind_eq_some_iff.mp h
  unfold wholeDigits? at hw
  split at hw
  · exact ⟨_, _, rfl, by decide⟩
  · unfold spanDigits at hw
    cases t with
    | nil => cases hw
    | cons p u =>
      cases hp : p.is Char.isDigit with
      | false => simp [hp] at hw
      | true =>
        cases p with
        | half i => cases hp
        | char c => exact ⟨c, u, rfl, hp⟩

/-- **What starts with a digit is read as a number**, with its sign. -/
theorem scalar?_eq_number (neg : Bool) {c : Char} (hc : c.isDigit = true) (u : Text) :
    scalar? ((if neg then [.char '-'] else []) ++ .char c :: u) = number neg (.char c :: u) := by
  cases neg with
  | true =>
    have hword : afterWord? "Infinity" (.char c :: u) = none := by
      unfold afterWord?
      rw [if_neg]
      intro hp
      obtain ⟨w, hw⟩ := List.isPrefixOf_iff_prefix.mp hp
      have hI : some (CodePoint.char 'I') = some (.char c) := congrArg List.head? hw
      rw [← CodePoint.char.inj (Option.some.inj hI)] at hc
      exact absurd hc (by decide)
    show scalar? (.char '-' :: .char c :: u) = _
    rw [scalar?, hword]
  | false =>
    show scalar? (.char c :: u) = _
    unfold scalar?
    split
    all_goals first
      | rfl
      | (rename_i heq
         obtain ⟨hc', -⟩ := List.cons.inj heq
         rw [CodePoint.char.inj hc'] at hc
         exact absurd hc (by decide))

/-- **A number is read with its sign.** -/
theorem scalar?_of_number {neg : Bool} {t : Text} {r : Json × Text} (h : number neg t = some r) :
    scalar? ((if neg then [.char '-'] else []) ++ t) = some r := by
  obtain ⟨c, u, rfl, hc⟩ := exists_digit_of_number h
  exact (scalar?_eq_number neg hc u).trans h

theorem afterWord?_append (word t : Text) : afterWord? word (word ++ t) = some t := by
  unfold afterWord?
  rw [if_pos (List.isPrefixOf_iff_prefix.mpr (List.prefix_append word t)), List.drop_left]

/-- The digits of an integer with its sign. -/
theorem toList_toString_int (i : Int) :
    (ToString.toString i).toList
      = (if decide (i < 0) then ['-'] else []) ++ Nat.toDigits 10 i.natAbs := by
  cases i with
  | ofNat n =>
    show n.repr.toList = _
    rw [Nat.toList_repr]
    rfl
  | negSucc n =>
    show ("-" ++ (n + 1).repr).toList = _
    rw [String.toList_append, Nat.toList_repr, decide_eq_true (Int.negSucc_lt_zero n)]
    rfl

/-- **An integer is read as its digits are.** -/
theorem scalar?_toString_int (i : Int) (t : Text) :
    scalar? (Text.ofChars (ToString.toString i).toList ++ t)
      = number (decide (i < 0)) (Text.ofChars (Nat.toDigits 10 i.natAbs) ++ t) := by
  obtain ⟨c, cs, hds⟩ := List.exists_cons_of_ne_nil (Nat.toDigits_ne_nil (n := i.natAbs) (b := 10))
  have hc : c.isDigit = true := isDigit_of_mem_toDigits (hds ▸ List.mem_cons_self)
  have hread := scalar?_eq_number (decide (i < 0)) hc (Text.ofChars cs ++ t)
  rw [toList_toString_int, hds]
  cases hneg : decide (i < 0) <;> rw [hneg] at hread <;> exact hread

/-- **An integer is read back**, if it has no more digits than are read. -/
theorem scalar?_int {i : Int} {t : Text} (hi : decimalLength i.natAbs ≤ maxDigits)
    (ht : IsBehind t) :
    scalar? (Text.ofChars (ToString.toString i).toList ++ t) = some (int i, t) := by
  rw [scalar?_toString_int, number_whole _ (isWhole_toDigits i.natAbs) hi ht,
    digitsValue_toDigits, signed_natAbs]

/-- An integer with more digits is not read. -/
theorem scalar?_int_eq_none {i : Int} {t : Text} (hi : maxDigits < decimalLength i.natAbs)
    (ht : IsBehind t) : scalar? (Text.ofChars (ToString.toString i).toList ++ t) = none := by
  rw [scalar?_toString_int, number_eq_none _ (isWhole_toDigits i.natAbs) hi ht]

/-- Digits without the zeros at their end, and the zeros. -/
theorem exists_eq_dropTrailingZeros_append (ds : List Char) :
    ∃ k, ds = dropTrailingZeros ds ++ List.replicate k '0' := by
  refine ⟨(ds.reverse.takeWhile (· == '0')).length, ?_⟩
  have hzeros : ds.reverse.takeWhile (· == '0')
      = List.replicate (ds.reverse.takeWhile (· == '0')).length '0' :=
    List.eq_replicate_of_mem fun c hc =>
      beq_iff_eq.mp (List.all_eq_true.mp List.all_takeWhile c hc)
  rw [← List.reverse_replicate, ← hzeros, dropTrailingZeros, ← List.reverse_append,
    List.takeWhile_append_dropWhile, List.reverse_reverse]

theorem isSignificant_toDigits {n : Nat} (hn : 0 < n) : IsSignificant (Nat.toDigits 10 n) :=
  ⟨fun _ hc => isDigit_of_mem_toDigits hc, exists_toDigits_eq_cons hn⟩

theorem IsSignificant.dropTrailingZeros {ds : List Char} (h : IsSignificant ds) :
    IsSignificant (Binary64.dropTrailingZeros ds) := by
  obtain ⟨k, hk⟩ := exists_eq_dropTrailingZeros_append ds
  obtain ⟨c, cs, hds, hc⟩ := h.front
  refine ⟨fun d hd => h.digits d (hk ▸ List.mem_append_left _ hd), ?_⟩
  cases hdrop : Binary64.dropTrailingZeros ds with
  | nil =>
    rw [hdrop, hds, List.nil_append] at hk
    have : c = '0' := List.eq_of_mem_replicate (hk ▸ List.mem_cons_self)
    exact absurd this hc
  | cons d rest =>
    rw [hdrop, hds, List.cons_append] at hk
    exact ⟨d, rest, rfl, (List.cons.inj hk).1 ▸ hc⟩

/-- A number that is no zero is read back behind its sign. -/
theorem number_shortest {neg : Bool} {m : Nat} {q : Int} {t : Text} (hm : 0 < m)
    (hc : (Binary64.finite neg m q).Canonical) (ht : IsBehind t) :
    let d := Binary64.shortest neg m q
    let ds := Nat.toDigits 10 d.digits
    number neg (Text.ofChars (layout documentForm (dropTrailingZeros ds)
        (d.exponent + ds.length)) ++ t)
      = some (float (.finite neg m q), t) := by
  intro d ds
  have hread : d.read neg = .finite neg m q := Binary64.read_shortest hm hc
  have hd : 0 < d.digits := by
    refine Nat.pos_of_ne_zero fun h0 => ?_
    rw [Binary64.Decimal.read, h0] at hread
    have hzero : Binary64.zero neg = .finite neg m q := hread
    rw [Binary64.zero, Binary64.finite.injEq] at hzero
    exact hm.ne hzero.2.1
  obtain ⟨k, hk⟩ := exists_eq_dropTrailingZeros_append ds
  have hval : d.digits = digitsValue (dropTrailingZeros ds) * 10 ^ k := by
    have h := congrArg digitsValue hk
    rwa [digitsValue_toDigits, digitsValue_append, digitsValue_replicate, List.length_replicate,
      Nat.add_zero] at h
  have hlen : (ds.length : Int) = (dropTrailingZeros ds).length + k := by
    have h := congrArg List.length hk
    rw [List.length_append, List.length_replicate] at h
    exact_mod_cast h
  have hexp : d.exponent + ds.length - (dropTrailingZeros ds).length = d.exponent + k := by omega
  rw [number_layout neg (isSignificant_toDigits hd).dropTrailingZeros ht, hexp,
    ← Binary64.ofDecimal_mul_pow, ← hval]
  exact congrArg (fun x => some (float x, t)) hread

/-- **A number with a point is read back.** -/
theorem scalar?_float {x : Binary64} {t : Text} (hx : x.Canonical) (ht : IsBehind t) :
    scalar? (Text.ofChars x.render ++ t) = some (float x, t) := by
  cases x with
  | nan =>
    show (afterWord? "aN" ("aN" ++ t)).map (float .nan, ·) = _
    rw [afterWord?_append]
    rfl
  | infinite neg =>
    cases neg with
    | true =>
      show scalar? (.char '-' :: ("Infinity" ++ t)) = _
      rw [scalar?, afterWord?_append]
    | false =>
      show (afterWord? "nfinity" ("nfinity" ++ t)).map (float (.infinite false), ·) = _
      rw [afterWord?_append]
      rfl
  | finite neg m q =>
    have hnum : number neg (Text.ofChars (if m = 0 then ['0', '.', '0'] else
        layout documentForm (dropTrailingZeros (Nat.toDigits 10 (Binary64.shortest neg m q).digits))
          ((Binary64.shortest neg m q).exponent
            + (Nat.toDigits 10 (Binary64.shortest neg m q).digits).length)) ++ t)
        = some (float (.finite neg m q), t) := by
      split
      · rename_i hm
        have hq : q = Binary64.minExponent := hx.2.2.2.resolve_left (by rw [hm]; decide)
        have hread := number_point neg (.inl rfl) (List.cons_ne_nil '0' [])
          (List.forall_mem_singleton.mpr rfl) ht
        rw [hm, hq]
        exact hread
      · rename_i hm
        exact number_shortest (Nat.pos_of_ne_zero hm) hx ht
    have hread := scalar?_of_number hnum
    unfold Binary64.render
    cases neg <;> exact hread

end Json
end Rollout
