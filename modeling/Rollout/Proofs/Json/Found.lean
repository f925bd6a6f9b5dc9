import Rollout.Proofs.Json.Ascii
import Rollout.Proofs.Json.Portable
import Rollout.Proofs.Json.Quotation
import Rollout.Proofs.Json.Reading

/-!
# What is read can travel

Whatever document is read from a text of characters can be written and read again
(`Json.portable_of_parse`). The readers see to all of it: a number is rounded to
its format, an integer with too many digits is refused, of a repeated name one
field is left, and two escapes that make up a pair are read as one character, so
that no two halves come to stand together.

The text must not hold halves of its own. A text made of ASCII bytes does not.
-/

namespace Rollout
namespace Json

/-- **A text of characters**, without halves of surrogate pairs. -/
def IsOfChars (t : Text) : Prop :=
  ∀ p ∈ t, ∃ c, p = .char c

theorem IsOfChars.suffix {t u : Text} (h : IsOfChars t) (hu : u <:+ t) : IsOfChars u :=
  fun p hp => h p (hu.subset hp)

theorem isOfChars_ofChars (cs : List Char) : IsOfChars (Text.ofChars cs) := by
  intro p hp
  obtain ⟨c, -, rfl⟩ := List.mem_map.mp hp
  exact ⟨c, rfl⟩

/-! ## What is left is the end of the text -/

theorem suffix_cons_cons (p q : CodePoint) (t : Text) : t <:+ p :: q :: t :=
  (List.suffix_cons q t).trans (List.suffix_cons p _)

theorem skipSpace_suffix (t : Text) : skipSpace t <:+ t :=
  List.dropWhile_suffix _

theorem unit?_suffix {t u : Text} {n : Nat} (h : unit? t = some (n, u)) : u <:+ t := by
  unfold unit? at h
  split at h
  · rename_i a b c d rest
    simp only [Option.bind_eq_bind, Option.bind_eq_some_iff, Option.pure_def, Option.some.injEq,
      Prod.mk.injEq] at h
    obtain ⟨_, -, _, -, _, -, _, -, -, rfl⟩ := h
    exact List.suffix_append [.char a, .char b, .char c, .char d] rest
  · cases h

theorem escapedPoint?_suffix {t u : Text} {p : CodePoint} (h : escapedPoint? t = some (p, u)) :
    u <:+ t := by
  unfold escapedPoint? at h
  obtain ⟨⟨n, rest⟩, hu, h⟩ := Option.bind_eq_some_iff.mp h
  have hrest := unit?_suffix hu
  simp only at h
  split at h
  · rename_i more
    split at h
    · rename_i m behind hm
      have hbehind : behind <:+ .char '\\' :: .char 'u' :: more :=
        (unit?_suffix hm).trans (suffix_cons_cons _ _ more)
      split at h <;> cases h
      · exact hbehind.trans hrest
      · exact hrest
    · cases h
      exact hrest
  · cases h
    exact hrest

theorem nextPoint?_suffix {t u : Text} {p : CodePoint} (h : nextPoint? t = some (p, u)) :
    u <:+ t := by
  unfold nextPoint? at h
  split at h
  · rename_i more
    exact (escapedPoint?_suffix h).trans (suffix_cons_cons _ _ more)
  · rename_i e more _
    obtain ⟨c, -, hc⟩ := Option.map_eq_some_iff.mp h
    cases hc
    exact suffix_cons_cons _ _ u
  · rename_i c rest _ _
    split at h
    · cases h
    · cases h
      exact List.suffix_cons _ _
  · cases h
    exact List.suffix_cons _ _
  · cases h

/-- **What the readers of a text's code points leave behind.** -/
theorem textBody?_suffix {read s t u : Text} {fuel : Nat}
    (h : textBody? read fuel t = some (s, u)) : u <:+ t := by
  induction fuel generalizing read t with
  | zero => cases h
  | succ fuel ih =>
    unfold textBody? at h
    split at h
    · cases h
      exact List.suffix_cons _ _
    · split at h
      · rename_i hnext
        exact (ih h).trans (nextPoint?_suffix hnext)
      · cases h

theorem spanDigits_suffix (t : Text) : (spanDigits t).2 <:+ t :=
  List.dropWhile_suffix _

theorem wholeDigits?_suffix {t u : Text} {ds : List Char} (h : wholeDigits? t = some (ds, u)) :
    u <:+ t := by
  unfold wholeDigits? at h
  split at h
  · cases h
    exact List.suffix_cons _ _
  · split at h
    · cases h
    · have hs := spanDigits_suffix t
      rwa [Option.some.inj h] at hs

theorem fraction_suffix (t : Text) : (fraction t).2 <:+ t := by
  unfold fraction
  split
  · rename_i rest
    split
    · exact List.suffix_rfl
    · exact (spanDigits_suffix rest).trans (List.suffix_cons _ _)
  · exact List.suffix_rfl

theorem exponent?_suffix {t u : Text} {e : Int} (h : exponent? t = some (e, u)) : u <:+ t := by
  have hdigits : ∀ {neg : Bool} {v : Text}, exponentDigits? neg v = some (e, u) → u <:+ v := by
    intro neg v h
    have hv := spanDigits_suffix v
    unfold exponentDigits? at h
    split at h
    · cases h
    · rename_i heq
      cases h
      rwa [heq] at hv
  unfold exponent? at h
  split at h
  · split at h
    · split at h
      · exact (hdigits h).trans (suffix_cons_cons _ _ _)
      · exact (hdigits h).trans (suffix_cons_cons _ _ _)
      · exact (hdigits h).trans (List.suffix_cons _ _)
    · cases h
  · cases h

theorem afterWord?_suffix {word t u : Text} (h : afterWord? word t = some u) : u <:+ t := by
  unfold afterWord? at h
  split at h
  · cases h
    exact List.drop_suffix _ _
  · cases h

theorem number_suffix {neg : Bool} {t u : Text} {j : Json} (h : number neg t = some (j, u)) :
    u <:+ t := by
  unfold number at h
  obtain ⟨⟨ds, v⟩, hw, h⟩ := Option.bind_eq_some_iff.mp h
  have hfrac := (fraction_suffix v).trans (wholeDigits?_suffix hw)
  simp only at h
  split at h
  · rename_i hexp
    cases h
    exact (exponent?_suffix hexp).trans hfrac
  · split at h
    · split at h
      · cases h
        exact hfrac
      · cases h
    · cases h
      exact hfrac

theorem text?_suffix {s t u : Text} (h : text? t = some (s, u)) : u <:+ t :=
  textBody?_suffix h

theorem scalar?_suffix {t u : Text} {j : Json} (h : scalar? t = some (j, u)) : u <:+ t := by
  have hword : ∀ {word v : Text} {x : Json} (p : CodePoint),
      (afterWord? word v).map (x, ·) = some (j, u) → u <:+ p :: v := by
    intro word v x p h
    obtain ⟨w, hw, hx⟩ := Option.map_eq_some_iff.mp h
    cases hx
    exact (afterWord?_suffix hw).trans (List.suffix_cons _ _)
  unfold scalar? at h
  split at h
  · obtain ⟨⟨s, w⟩, hs, hx⟩ := Option.map_eq_some_iff.mp h
    cases hx
    exact (text?_suffix hs).trans (List.suffix_cons _ _)
  · exact hword _ h
  · exact hword _ h
  · exact hword _ h
  · exact hword _ h
  · exact hword _ h
  · split at h
    · rename_i hw
      cases h
      exact (afterWord?_suffix hw).trans (List.suffix_cons _ _)
    · exact (number_suffix h).trans (List.suffix_cons _ _)
  · exact number_suffix h

/-! ## Texts -/

theorem hexValue?_lt {c : Char} {n : Nat} (h : hexValue? c = some n) : n < 16 := by
  unfold hexValue? at h
  split_ifs at h with h₁ h₂ h₃
  · rw [Bool.and_eq_true, decide_eq_true_eq, decide_eq_true_eq] at h₁
    have hup : c.toNat ≤ 57 := h₁.2
    cases h
    have : '0'.toNat = 48 := rfl
    omega
  · rw [Bool.and_eq_true, decide_eq_true_eq, decide_eq_true_eq] at h₂
    have hup : c.toNat ≤ 102 := h₂.2
    cases h
    have : 'a'.toNat = 97 := rfl
    omega
  · rw [Bool.and_eq_true, decide_eq_true_eq, decide_eq_true_eq] at h₃
    have hup : c.toNat ≤ 70 := h₃.2
    cases h
    have : 'A'.toNat = 65 := rfl
    omega

theorem unit?_lt {t u : Text} {n : Nat} (h : unit? t = some (n, u)) : n < 0x10000 := by
  unfold unit? at h
  split at h
  · simp only [Option.bind_eq_bind, Option.bind_eq_some_iff, Option.pure_def, Option.some.injEq,
      Prod.mk.injEq] at h
    obtain ⟨a, ha, b, hb, c, hc, d, hd, rfl, -⟩ := h
    have := hexValue?_lt ha
    have := hexValue?_lt hb
    have := hexValue?_lt hc
    have := hexValue?_lt hd
    omega
  · cases h

/-- A code point that is no half of a pair opens none. -/
theorem char?_eq_none_of_char {c : Char} (n : Nat) :
    SurrogatePair.char? (CodePoint.char c).value n = none := by
  have hhigh : SurrogatePair.isHigh (CodePoint.char c).value = false := Text.isHigh_toNat c
  rw [SurrogatePair.char?, hhigh, Bool.false_and]
  rfl

/-- The character of a pair is no half. -/
theorem exists_char_of_char? {high low : Nat} {p : CodePoint}
    (h : SurrogatePair.char? high low = some p) : ∃ c, p = .char c := by
  unfold SurrogatePair.char? at h
  split at h
  · rename_i hpair
    rw [SurrogatePair.isHigh, SurrogatePair.isLow, Bool.and_eq_true, Bool.and_eq_true,
      Bool.and_eq_true] at hpair
    simp only [decide_eq_true_eq] at hpair
    have hvalue : ¬(0xD800 ≤ SurrogatePair.value high low
        ∧ SurrogatePair.value high low < 0xE000) := by
      unfold SurrogatePair.value
      omega
    have hmax : SurrogatePair.value high low < 0x110000 := by
      unfold SurrogatePair.value
      omega
    refine ⟨Char.ofNat (SurrogatePair.value high low), ?_⟩
    rw [← Option.some.inj h, CodePoint.ofValue, CodePoint.ofValue?, dif_neg hvalue, if_pos hmax]
    rfl
  · cases h

/-- **Two escapes that make up a pair are read as one**: a unit that was read on its
own does not stand before its other half. -/
theorem isApart_of_nextPoint? {t u : Text} {p : CodePoint} (ht : IsOfChars t)
    (h : nextPoint? t = some (p, u)) : IsApart p u := by
  intro more m behind hu hm
  cases p with
  | char c => exact char?_eq_none_of_char m
  | half i =>
    unfold nextPoint? at h
    split at h
    · rename_i v
      unfold escapedPoint? at h
      obtain ⟨⟨n, rest⟩, hn, h⟩ := Option.bind_eq_some_iff.mp h
      have hvalue := CodePoint.value_ofValue (Nat.lt_trans (unit?_lt hn) (by decide))
      simp only at h
      split at h
      · rename_i next
        split at h
        -- an escape stands behind the half: the two are joined unless they make no pair
        · rename_i m' behind' hm'
          split at h
          · rename_i c hc
            obtain ⟨c', rfl⟩ := exists_char_of_char? hc
            cases h
          · rename_i hc
            obtain ⟨hp, hrest⟩ := Prod.mk.inj (Option.some.inj h)
            rw [← hp, hvalue]
            rw [← hrest] at hu
            obtain rfl := (List.cons.inj (List.cons.inj hu).2).2
            rw [hm] at hm'
            obtain ⟨rfl, -⟩ := Prod.mk.inj (Option.some.inj hm')
            exact hc
        · rename_i hm'
          obtain ⟨-, hrest⟩ := Prod.mk.inj (Option.some.inj h)
          rw [← hrest] at hu
          obtain rfl := (List.cons.inj (List.cons.inj hu).2).2
          rw [hm] at hm'
          cases hm'
      · rename_i hne
        obtain ⟨-, hrest⟩ := Prod.mk.inj (Option.some.inj h)
        rw [hrest] at hne
        exact absurd hu (hne more)
    · obtain ⟨_, -, hc⟩ := Option.map_eq_some_iff.mp h
      cases hc
    · split at h <;> cases h
    · obtain ⟨c, hc⟩ := ht _ List.mem_cons_self
      cases hc
    · cases h

/-- What stands apart from a code point is no other half of it. -/
theorem char?_of_isApart {t u : Text} {p q : CodePoint} (ht : IsOfChars t) (hp : IsApart p t)
    (h : nextPoint? t = some (q, u)) : SurrogatePair.char? p.value q.value = none := by
  cases q with
  | char c =>
    have hlow : SurrogatePair.isLow (CodePoint.char c).value = false := by
      have : c.toNat < 0xD800 ∨ 0xDFFF < c.toNat ∧ c.toNat < 0x110000 := c.valid
      rw [SurrogatePair.isLow, CodePoint.value, Bool.and_eq_false_iff, decide_eq_false_iff_not,
        decide_eq_false_iff_not]
      omega
    rw [SurrogatePair.char?, hlow, Bool.and_false]
    rfl
  | half i =>
    unfold nextPoint? at h
    split at h
    · rename_i v
      unfold escapedPoint? at h
      obtain ⟨⟨n, rest⟩, hn, h⟩ := Option.bind_eq_some_iff.mp h
      have hvalue := CodePoint.value_ofValue (Nat.lt_trans (unit?_lt hn) (by decide))
      have hq : CodePoint.ofValue n = .half i := by
        simp only at h
        split at h
        · split at h
          · split at h
            · rename_i hc
              obtain ⟨c', rfl⟩ := exists_char_of_char? hc
              cases h
            · exact (Prod.mk.inj (Option.some.inj h)).1
          · exact (Prod.mk.inj (Option.some.inj h)).1
        · exact (Prod.mk.inj (Option.some.inj h)).1
      rw [← hq, hvalue]
      exact hp v n rest rfl hn
    · obtain ⟨_, -, hc⟩ := Option.map_eq_some_iff.mp h
      cases hc
    · split at h <;> cases h
    · obtain ⟨c, hc⟩ := ht _ List.mem_cons_self
      cases hc
    · cases h

/-- **A text that is read has no pairs to join.** -/
theorem joined_of_textBody? {read s t u : Text} {fuel : Nat} (ht : IsOfChars t)
    (h : textBody? read fuel t = some (s, u)) :
    ∃ s', s = read.reverse ++ s' ∧ s'.joined = s'
      ∧ ∀ p, IsApart p t → Text.joined (p :: s') = p :: s' := by
  induction fuel generalizing read t with
  | zero => cases h
  | succ fuel ih =>
    unfold textBody? at h
    split at h
    · cases h
      exact ⟨[], (List.append_nil _).symm, rfl, fun _ _ => rfl⟩
    · split at h
      · rename_i q v hnext
        have hv := ht.suffix (nextPoint?_suffix hnext)
        obtain ⟨s', rfl, -, happ⟩ := ih hv h
        have hq := happ q (isApart_of_nextPoint? ht hnext)
        refine ⟨q :: s', by simp, hq, fun p hp => ?_⟩
        exact Text.joined_cons_cons_iff.mpr ⟨char?_of_isApart ht hp hnext, hq⟩
      · cases h

theorem joined_of_text? {s t u : Text} (ht : IsOfChars t) (h : text? t = some (s, u)) :
    s.joined = s := by
  obtain ⟨s', rfl, hs, -⟩ := joined_of_textBody? ht h
  exact hs

/-! ## Numbers -/

theorem forall_isDigit_of_wholeDigits? {t u : Text} {ds : List Char}
    (h : wholeDigits? t = some (ds, u)) : ∀ c ∈ ds, c.isDigit = true := by
  unfold wholeDigits? at h
  split at h
  · cases h
    exact List.forall_mem_singleton.mpr rfl
  · split at h
    · cases h
    · intro c hc
      have hds : (spanDigits t).1 = ds := congrArg Prod.fst (Option.some.inj h)
      rw [← hds] at hc
      obtain ⟨p, hp, rfl⟩ := List.mem_map.mp hc
      have hd := List.all_eq_true.mp List.all_takeWhile p hp
      cases p with
      | char c => exact hd
      | half i => cases hd

/-- A number of so many digits is less than that power of ten. -/
theorem digitsValue_lt {ds : List Char} (h : ∀ c ∈ ds, c.isDigit = true) :
    digitsValue ds < 10 ^ ds.length := by
  induction ds with
  | nil => exact Nat.one_pos
  | cons c cs ih =>
    obtain ⟨hc, hcs⟩ := List.forall_mem_cons.mp h
    have hval : digitsValue [c] ≤ 9 := by
      rw [Char.isDigit, Bool.and_eq_true, decide_eq_true_eq, decide_eq_true_eq] at hc
      have hup : c.toNat ≤ 57 := hc.2
      have hzero : '0'.toNat = 48 := rfl
      rw [digitsValue, Nat.ofDigitChars_cons, Nat.ofDigitChars_nil]
      omega
    have hrest := ih hcs
    have hmul := Nat.mul_le_mul_right (10 ^ cs.length) hval
    rw [← List.singleton_append, digitsValue_append, List.length_append, List.length_singleton,
      Nat.pow_add, Nat.pow_one]
    omega

/-- **A value nested `depth` deep at most that travels.** -/
def Travels (depth : Nat) (j : Json) : Prop :=
  everywhere isPortablePart j = true ∧ j.depth ≤ depth

theorem travels_of_number {neg : Bool} {t u : Text} {j : Json} (h : number neg t = some (j, u))
    (depth : Nat) : Travels depth j := by
  unfold number at h
  obtain ⟨⟨ds, v⟩, hw, h⟩ := Option.bind_eq_some_iff.mp h
  have hfloat : ∀ n e, Travels depth (float (Binary64.ofDecimal neg n e)) := fun n e =>
    ⟨decide_eq_true (Binary64.canonical_ofDecimal neg n e), Nat.zero_le _⟩
  simp only at h
  split at h
  · cases h
    exact hfloat _ _
  · split at h
    · split at h
      · rename_i hlen
        cases h
        have habs : (Binary64.signed neg (digitsValue ds)).natAbs = digitsValue ds := by
          unfold Binary64.signed
          split <;> omega
        have hlt := digitsValue_lt (forall_isDigit_of_wholeDigits? hw)
        have hmax := Nat.pow_le_pow_right (n := 10) (by decide) hlen
        refine ⟨decide_eq_true ?_, Nat.zero_le _⟩
        rw [habs, Binary64.decimalLength_le_iff (by decide)]
        exact Nat.lt_of_lt_of_le hlt hmax
      · cases h
    · cases h
      exact hfloat _ _

/-! ## Values -/

/-- **A scalar that is read travels.** -/
theorem travels_of_scalar? {t u : Text} {j : Json} (ht : IsOfChars t)
    (h : scalar? t = some (j, u)) (depth : Nat) : Travels depth j := by
  have hplain : ∀ {j : Json}, everywhere isPortablePart j = true → j.depth = 0 →
      Travels depth j := fun hj hd => ⟨hj, hd ▸ Nat.zero_le _⟩
  have hword : ∀ {word v : Text} {x : Json}, Travels depth x →
      (afterWord? word v).map (x, ·) = some (j, u) → Travels depth j := by
    intro word v x hx h
    obtain ⟨w, -, heq⟩ := Option.map_eq_some_iff.mp h
    exact (Prod.mk.inj heq).1 ▸ hx
  unfold scalar? at h
  split at h
  · rename_i rest
    obtain ⟨⟨s, w⟩, hs, hx⟩ := Option.map_eq_some_iff.mp h
    cases hx
    have hrest := ht.suffix (List.suffix_cons _ rest)
    exact hplain (decide_eq_true (joined_of_text? hrest hs)) rfl
  · exact hword (hplain rfl rfl) h
  · exact hword (hplain rfl rfl) h
  · exact hword (hplain rfl rfl) h
  · exact hword (hplain (by decide) rfl) h
  · exact hword (hplain (by decide) rfl) h
  · split at h
    · cases h
      exact hplain (by decide) rfl
    · exact travels_of_number h depth
  · exact travels_of_number h depth

/-- **What the readers find travels**, and what they leave is the end of the text. -/
theorem travels_of_read (fuel : Nat) :
    (∀ depth t j u, IsOfChars t → readValue fuel depth t = .ok (j, u) →
        Travels depth j ∧ u <:+ t)
      ∧ (∀ depth t xs u, IsOfChars t → readItems fuel depth t = .ok (xs, u) →
        (∀ x ∈ xs, Travels depth x) ∧ u <:+ t)
      ∧ ∀ depth t ps u, IsOfChars t → readFields fuel depth t = .ok (ps, u) →
        (∀ f ∈ ps, f.1.joined = f.1 ∧ Travels depth f.2) ∧ u <:+ t := by
  -- a reader calls the others with less fuel, so that all three go by one induction
  induction fuel with
  | zero =>
    refine ⟨fun _ _ _ _ _ h => ?_, fun _ _ _ _ _ h => ?_, fun _ _ _ _ _ h => ?_⟩ <;> cases h
  | succ fuel ih =>
    obtain ⟨ihValue, ihItems, ihFields⟩ := ih
    refine ⟨fun depth t j u ht h => ?_, fun depth t xs u ht h => ?_,
      fun depth t ps u ht h => ?_⟩
    · rcases cases_of_readValue h with ⟨d, v, rfl, rfl, hlist⟩ | ⟨d, v, rfl, rfl, hobj⟩ | hs
      · have hv : skipSpace v <:+ .char '[' :: v :=
          (skipSpace_suffix v).trans (List.suffix_cons _ _)
        rcases hlist with ⟨heq, rfl⟩ | ⟨xs, hr, rfl⟩
        · rw [heq] at hv
          exact ⟨⟨rfl, Nat.succ_le_succ (Nat.zero_le d)⟩, (List.suffix_cons _ _).trans hv⟩
        · obtain ⟨hxs, hu⟩ := ihItems d _ xs u (ht.suffix hv) hr
          refine ⟨⟨everywhere_arr_iff.mpr ⟨rfl, fun x hx => (hxs x hx).1⟩, ?_⟩, hu.trans hv⟩
          exact Nat.succ_le_succ (depthOfItems_le_iff.mpr fun x hx => (hxs x hx).2)
      · have hv : skipSpace v <:+ .char '\x7b' :: v :=
          (skipSpace_suffix v).trans (List.suffix_cons _ _)
        rcases hobj with ⟨heq, rfl⟩ | ⟨ps, hr, rfl⟩
        · rw [heq] at hv
          exact ⟨⟨rfl, Nat.succ_le_succ (Nat.zero_le d)⟩, (List.suffix_cons _ _).trans hv⟩
        · obtain ⟨hps, hu⟩ := ihFields d _ ps u (ht.suffix hv) hr
          -- names that repeat are gone when the fields are put together
          have hmem : ∀ f ∈ Fields.ofPairs ps, f.1.joined = f.1 ∧ Travels d f.2 :=
            fun f hf => hps f (Fields.mem_of_mem_ofPairs hf)
          have hpart := isPortablePart_obj_iff.mpr
            ⟨Fields.distinct_ofPairs ps, fun f hf => (hmem f hf).1⟩
          refine ⟨⟨everywhere_obj_iff.mpr ⟨hpart, fun f hf => (hmem f hf).2.1⟩, ?_⟩, hu.trans hv⟩
          exact Nat.succ_le_succ (depthOfFields_le_iff.mpr fun f hf => (hmem f hf).2.2)
      · exact ⟨travels_of_scalar? ht hs depth, scalar?_suffix hs⟩
    · obtain ⟨x, v, hr, hend⟩ := readItems_eq_ok_iff.mp h
      obtain ⟨hx, hv⟩ := ihValue depth t x v ht hr
      have hskip := (skipSpace_suffix v).trans hv
      rcases hend with ⟨heq, rfl⟩ | ⟨w, ys, heq, hi, rfl⟩
      · rw [heq] at hskip
        exact ⟨List.forall_mem_singleton.mpr hx, (List.suffix_cons _ _).trans hskip⟩
      · rw [heq] at hskip
        have hw := (skipSpace_suffix w).trans ((List.suffix_cons _ _).trans hskip)
        obtain ⟨hys, hu⟩ := ihItems depth _ ys u (ht.suffix hw) hi
        exact ⟨List.forall_mem_cons.mpr ⟨hx, hys⟩, hu.trans hw⟩
    · obtain ⟨t', k, v, v', x, w, rfl, hk, hcolon, hr, hend⟩ := readFields_eq_ok_iff.mp h
      have ht' : t' <:+ .char '\x22' :: t' := List.suffix_cons _ _
      have hjoined := joined_of_text? (ht.suffix ht') hk
      have hskip := (skipSpace_suffix v).trans ((text?_suffix hk).trans ht')
      rw [hcolon] at hskip
      have hv' := (skipSpace_suffix v').trans ((List.suffix_cons _ _).trans hskip)
      obtain ⟨hx, hw⟩ := ihValue depth _ x w (ht.suffix hv') hr
      have hclose := (skipSpace_suffix w).trans (hw.trans hv')
      rcases hend with ⟨heq, rfl⟩ | ⟨w', qs, heq, hi, rfl⟩
      · rw [heq] at hclose
        exact ⟨List.forall_mem_singleton.mpr ⟨hjoined, hx⟩, (List.suffix_cons _ _).trans hclose⟩
      · rw [heq] at hclose
        have hw' := (skipSpace_suffix w').trans ((List.suffix_cons _ _).trans hclose)
        obtain ⟨hqs, hu⟩ := ihFields depth _ qs u (ht.suffix hw') hi
        exact ⟨List.forall_mem_cons.mpr ⟨⟨hjoined, hx⟩, hqs⟩, hu.trans hw'⟩

/-- **A document that is read from characters travels.** -/
theorem portable_of_parse {t : Text} {j : Json} (ht : IsOfChars t) (h : parse t = .ok j) :
    Portable j := by
  unfold parse at h
  cases hr : readValue (t.length + 1) maxDepth (skipSpace t) with
  | error e =>
    rw [hr] at h
    cases h
  | ok r =>
    obtain ⟨v, rest⟩ := r
    have hv := ((travels_of_read _).1 _ _ _ _ (ht.suffix (skipSpace_suffix t)) hr).1
    rw [hr] at h
    change (if (skipSpace rest).isEmpty then _ else _) = _ at h
    split at h
    · cases h
      exact ⟨hv.1, hv.2⟩
    · cases h

/-- **What the bytes of any document are read as travels.** -/
theorem portable_of_decode_encode {j j' : Json} (h : decode (encode j) = .ok j') :
    Portable j' := by
  rw [decode_encode_eq_parse] at h
  exact portable_of_parse (isOfChars_ofChars _) h

end Json
end Rollout
