import Mathlib.Data.List.DropRight
import Rollout.Text.Blank
import Rollout.Text.LowerCase

/-!
# Blanks around a word, and its case

What is dropped around a text is dropped no matter how it is split: blanks put at either end make
no difference (`trim_append_blanks`), and a text that begins and ends with anything else keeps all
of it, whatever it is put together from (`trim_append_cons`).

No blank has another case, so that folding A to Z and trimming can be done in either order
(`trim_asciiLower`). Words that are known are told from each other after this folding, and it makes
no difference that it leaves other capitals alone: a text comes to such a word by it just if it
comes to it by the folding of all letters (`lowerCase_eq_iff`). The word must not hold a k, which is
also the small form of the sign of the kelvin.
-/

namespace Rollout

variable {p : Char → Bool} {s t : Text}

/-! ## Blanks -/

theorem trimBy_eq (p : Char → Bool) (t : Text) :
    trimBy p t = (t.dropWhile (·.is p)).rdropWhile (·.is p) := rfl

/-- Blanks before a text are dropped. -/
theorem trimBy_append_left {b : Text} (hb : ∀ c ∈ b, c.is p) (t : Text) :
    trimBy p (b ++ t) = trimBy p t := by
  rw [trimBy_eq, trimBy_eq, List.dropWhile_append_of_pos hb]

/-- Blanks behind a text are dropped. -/
theorem trimBy_append_right (t : Text) {e : Text} (he : ∀ c ∈ e, c.is p) :
    trimBy p (t ++ e) = trimBy p t := by
  have hreverse : ∀ c ∈ e.reverse, c.is p := fun c hc => he c (List.mem_reverse.mp hc)
  have hdrop : ∀ u : Text, (u ++ e).rdropWhile (·.is p) = u.rdropWhile (·.is p) := fun u => by
    rw [List.rdropWhile, List.reverse_append, List.dropWhile_append_of_pos hreverse]
    rfl
  rw [trimBy_eq, trimBy_eq, List.dropWhile_append]
  split
  · rename_i hall
    rw [List.isEmpty_iff.mp hall, List.dropWhile_eq_nil_iff.mpr he]
  · exact hdrop _

/-- **Blanks around a text make no difference.** -/
theorem trim_append_blanks {b e : Text} (hb : ∀ c ∈ b, c.is isBlank) (he : ∀ c ∈ e, c.is isBlank)
    (t : Text) : trim (b ++ t ++ e) = trim t := by
  rw [trim, trimBy_append_right _ he, trimBy_append_left hb]
  rfl

/-- **A text is kept as it is** if it begins and ends with no blank. -/
theorem trimBy_eq_self_iff :
    trimBy p t = t ↔
      (∀ hne : t ≠ [], ¬(t.head hne).is p) ∧ ∀ hne : t ≠ [], ¬(t.getLast hne).is p := by
  have hfront : t.dropWhile (·.is p) = t ↔ ∀ hne : t ≠ [], ¬(t.head hne).is p := by
    cases t with
    | nil => exact iff_of_true rfl fun hne => absurd rfl hne
    | cons c t => simp [List.dropWhile_eq_self_iff]
  rw [← hfront, ← List.rdropWhile_eq_self_iff, trimBy_eq]
  refine ⟨fun h => ?_, fun ⟨hfront, hback⟩ => by rw [hfront, hback]⟩
  have hle : t.length ≤ (t.dropWhile (·.is p)).length := by
    have hback := (List.rdropWhile_prefix (·.is p) (t.dropWhile (·.is p))).length_le
    rwa [h] at hback
  have hall : t.dropWhile (·.is p) = t := (List.dropWhile_suffix _).eq_of_length_le hle
  exact ⟨hall, by rwa [hall] at h⟩

/-- **Trimmed texts with something between them that is no blank** are trimmed. -/
theorem trim_append_cons {c : CodePoint} (hs : trim s = s) (hc : c.is isBlank = false)
    (ht : trim t = t) : trim (s ++ c :: t) = s ++ c :: t := by
  have hcn : ¬c.is isBlank = true := Bool.not_eq_true _ ▸ hc
  refine trimBy_eq_self_iff.mpr ⟨fun _ => ?_, fun _ => ?_⟩
  · cases s with
    | nil => exact hcn
    | cons a s => exact (trimBy_eq_self_iff.mp hs).1 (List.cons_ne_nil a s)
  · rw [List.getLast_append_right (List.cons_ne_nil c t)]
    cases t with
    | nil => exact hcn
    | cons a t => exact (trimBy_eq_self_iff.mp ht).2 (List.cons_ne_nil a t)

/-! ## Case -/

/-- A to Z lie 32 before their small letters, and no other character is changed. -/
theorem toNat_toLower (c : Char) :
    c.toLower.toNat = if 65 ≤ c.toNat ∧ c.toNat ≤ 90 then c.toNat + 32 else c.toNat := by
  have hiff : c.val ≥ 'A'.val ∧ c.val ≤ 'Z'.val ↔ 65 ≤ c.toNat ∧ c.toNat ≤ 90 := Iff.rfl
  unfold Char.toLower
  split
  · rename_i h
    obtain ⟨-, hle⟩ := hiff.mp h
    rw [if_pos (hiff.mp h)]
    show (c.val + ('a'.val - 'A'.val)).toNat = c.toNat + 32
    rw [UInt32.toNat_add]
    exact Nat.mod_eq_of_lt (show c.toNat + 32 < 2 ^ 32 by omega)
  · rename_i h
    rw [if_neg (mt hiff.mpr h)]

theorem toLower_toLower (c : Char) : c.toLower.toLower = c.toLower := by
  rw [← Char.toNat_inj, toNat_toLower c.toLower, if_neg]
  rw [toNat_toLower]
  split <;> omega

/-- No blank has another case. -/
theorem isBlank_toLower (c : Char) : isBlank c.toLower = isBlank c := by
  rw [Bool.eq_iff_iff]
  simp only [isBlank, toNat_toLower, Bool.or_eq_true, Bool.and_eq_true, decide_eq_true_eq,
    beq_iff_eq]
  split <;> omega

/-- A character that is no letter is small only if it is the character. -/
theorem map_toLower_eq_char_iff {c : Char} (hc : c.toNat < 65) (q : CodePoint) :
    q.map Char.toLower = .char c ↔ q = .char c := by
  cases q with
  | half i => exact iff_of_false (fun h => by cases h) (fun h => by cases h)
  | char d =>
    rw [CodePoint.map, CodePoint.char.injEq, CodePoint.char.injEq, ← Char.toNat_inj,
      ← Char.toNat_inj, toNat_toLower]
    split <;> omega

/-- Small letters are small letters to begin with. -/
theorem asciiLower_asciiLower (t : Text) : asciiLower (asciiLower t) = asciiLower t := by
  have hpoint : ∀ q : CodePoint, (q.map Char.toLower).map Char.toLower = q.map Char.toLower := by
    rintro (c | i)
    · exact congrArg CodePoint.char (toLower_toLower c)
    · rfl
  rw [asciiLower, asciiLower, List.map_map]
  exact List.map_congr_left fun q _ => hpoint q

/-- **Trimming and folding** can be done in either order. -/
theorem trim_asciiLower (t : Text) : trim (asciiLower t) = asciiLower (trim t) := by
  have hblank : ((·.is isBlank) ∘ (CodePoint.map Char.toLower)) = (·.is isBlank) := by
    funext q
    cases q with
    | char c => exact isBlank_toLower c
    | half i => rfl
  rw [trim, trim, trimBy, trimBy, asciiLower, asciiLower, List.dropWhile_map, hblank,
    ← List.map_reverse, List.dropWhile_map, hblank, List.map_reverse]

/-! ## The two foldings -/

/-- A character that is small in one way only: an ASCII character that is not the small form of
another one beside its capital. The sign of the kelvin is a k in small letters. -/
def IsFoldedOnce (c : Char) : Prop :=
  c.toNat < 128 ∧ c ≠ 'k'

instance : DecidablePred IsFoldedOnce :=
  fun c => inferInstanceAs (Decidable (c.toNat < 128 ∧ c ≠ 'k'))

/-- The runs of capitals beyond ASCII stay beyond it, the sign of the kelvin apart. -/
theorem caseRuns_stay : ∀ r ∈ caseRuns, r.last < 128 ∨ 128 ≤ r.first
    ∧ (r.first = r.last ∧ (r.first : Int) + r.shift = 'k'.toNat
      ∨ 128 ≤ r.first + r.shift ∧ r.last + r.shift < 0xD800
      ∨ 0xE000 ≤ r.first + r.shift ∧ r.last + r.shift < 0x110000) := by
  decide +kernel

theorem toNat_ofNat_of_isValidChar {n : Nat} (h : n.isValidChar) : (Char.ofNat n).toNat = n := by
  rw [Char.ofNat, dif_pos h]
  rfl

/-- **Within ASCII** both foldings are the same. -/
theorem lowerChar_of_lt {c : Char} (hc : c.toNat < 128) : lowerChar c = [c.toLower] := by
  have hall : ∀ n : Fin 128, lowerChar (Char.ofNat n) = [(Char.ofNat n).toLower] := by
    decide +kernel
  have h := hall ⟨c.toNat, hc⟩
  rwa [Char.ofNat_toNat] at h

/-- **Beyond ASCII** no small form is made of characters that are folded once. -/
theorem exists_mem_lowerChar {c : Char} (hc : 128 ≤ c.toNat) :
    ∃ d ∈ lowerChar c, ¬IsFoldedOnce d := by
  rw [lowerChar]
  split
  · exact ⟨Char.ofNat 0x307, by simp, by decide⟩
  split
  · rename_i r hr
    have hmem := List.mem_of_find?_eq_some hr
    have hrange := List.find?_some hr
    simp only [Bool.and_eq_true, decide_eq_true_eq, beq_iff_eq] at hrange
    refine ⟨_, List.mem_singleton_self _, fun ⟨hlt, hk⟩ => ?_⟩
    rcases caseRuns_stay r hmem with hbelow | ⟨-, ⟨hone, hkelvin⟩ | hvalid | hvalid⟩
    · omega
    · refine hk ?_
      rw [show ((c.toNat : Int) + r.shift).toNat = 'k'.toNat by omega, Char.ofNat_toNat]
    · rw [toNat_ofNat_of_isValidChar (.inl (by omega))] at hlt
      omega
    · rw [toNat_ofNat_of_isValidChar (.inr (by omega))] at hlt
      omega
  · exact ⟨c, List.mem_singleton_self c, fun h => absurd h.1 (Nat.not_lt.mpr hc)⟩

theorem exists_mem_lowerPoint {c : Char} (hc : 128 ≤ c.toNat) (inWord : Bool) (rest : Text) :
    ∃ d, .char d ∈ lowerPoint inWord rest (.char c) ∧ ¬IsFoldedOnce d := by
  rw [lowerPoint]
  split
  · exact ⟨'ς', List.mem_singleton_self _, by decide⟩
  · obtain ⟨d, hd, hfolded⟩ := exists_mem_lowerChar hc
    exact ⟨d, List.mem_map_of_mem hd, hfolded⟩

/-- A text of characters that are folded once. -/
def IsPlainWord (w : Text) : Prop :=
  ∀ q ∈ w, q.is (fun c => decide (IsFoldedOnce c)) = true

instance : DecidablePred IsPlainWord :=
  fun w => inferInstanceAs (Decidable (∀ q ∈ w, _ = true))

theorem lowerFrom_eq_iff {w : Text} (hw : IsPlainWord w) (inWord : Bool) (t : Text) :
    lowerFrom inWord t = w ↔ asciiLower t = w := by
  induction t generalizing inWord w with
  | nil => exact Iff.rfl
  | cons q t ih =>
    rw [lowerFrom]
    cases q with
    | half i =>
      -- A half stays in either folding, and no word holds one.
      have hhalf : ∀ u, .half i :: u ≠ w := by
        rintro u rfl
        exact Bool.false_ne_true (hw (.half i) List.mem_cons_self)
      exact iff_of_false (hhalf _) (hhalf _)
    | char c =>
      rcases Nat.lt_or_ge c.toNat 128 with hc | hc
      · have hsigma : (c == 'Σ') = false := by
          rw [beq_eq_false_iff_ne]
          rintro rfl
          exact absurd hc (by decide)
        rw [lowerPoint, hsigma, lowerChar_of_lt hc]
        cases w with
        | nil => exact iff_of_false (List.cons_ne_nil _ _) (List.cons_ne_nil _ _)
        | cons q w =>
          show .char c.toLower :: lowerFrom _ t = q :: w ↔ .char c.toLower :: asciiLower t = q :: w
          rw [List.cons.injEq, List.cons.injEq, ih (List.forall_mem_cons.mp hw).2]
      · obtain ⟨d, hd, hfolded⟩ := exists_mem_lowerPoint hc inWord t
        refine iff_of_false ?_ ?_
        · rintro rfl
          exact hfolded (of_decide_eq_true (hw _ (List.mem_append_left _ hd)))
        · rintro rfl
          have hsmall : c.toLower = c := by
            rw [← Char.toNat_inj, toNat_toLower, if_neg (by omega)]
          have hlt := (of_decide_eq_true (hw (.char c.toLower) List.mem_cons_self)).1
          rw [hsmall] at hlt
          omega

/-- **A text is a plain word in small letters by both foldings or by none.** -/
theorem lowerCase_eq_iff {w : Text} (hw : IsPlainWord w) : lowerCase t = w ↔ asciiLower t = w :=
  lowerFrom_eq_iff hw false t

end Rollout
