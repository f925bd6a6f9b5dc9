import Mathlib.Tactic.SplitIfs
import Rollout.Json.Parser
import Rollout.Json.Printer
import Rollout.Proofs.Text.SurrogatePair

/-!
# Quoted texts read back

Whatever a code point is written as, it is read as that code point
(`Json.nextPoint?_writtenPoint`), save that half of a pair must not be followed
by its other half: two escapes that make up a pair are read as one character. A
text that has no pairs to join is therefore read back as it is
(`Json.text?_written`).
-/

namespace Rollout
namespace Json

/-! ## Hexadecimal units -/

theorem hexValue?_digitChar : ∀ d < 16, hexValue? (Nat.digitChar d) = some d := by
  decide

/-- **Four hexadecimal digits are read back.** -/
theorem unit?_hexDigits {n : Nat} (hn : n < 0x10000) (t : Text) :
    unit? (Text.ofChars (hexDigits 4 n) ++ t) = some (n, t) := by
  have h₁ := hexValue?_digitChar (n / 16 / 16 / 16 % 16) (by omega)
  have h₂ := hexValue?_digitChar (n / 16 / 16 % 16) (by omega)
  have h₃ := hexValue?_digitChar (n / 16 % 16) (by omega)
  have h₄ := hexValue?_digitChar (n % 16) (by omega)
  show (do
    let a ← hexValue? (Nat.digitChar (n / 16 / 16 / 16 % 16))
    let b ← hexValue? (Nat.digitChar (n / 16 / 16 % 16))
    let c ← hexValue? (Nat.digitChar (n / 16 % 16))
    let d ← hexValue? (Nat.digitChar (n % 16))
    return (((a * 16 + b) * 16 + c) * 16 + d, t)) = some (n, t)
  rw [h₁, h₂, h₃, h₄]
  refine congrArg (fun m => some (m, t)) ?_
  show ((n / 16 / 16 / 16 % 16 * 16 + n / 16 / 16 % 16) * 16 + n / 16 % 16) * 16 + n % 16 = n
  omega

theorem ofChars_append (as bs : List Char) :
    Text.ofChars (as ++ bs) = Text.ofChars as ++ Text.ofChars bs :=
  List.map_append

theorem ofChars_escapedUnit_append (n : Nat) (t : Text) :
    Text.ofChars (escapedUnit n) ++ t
      = .char '\\' :: .char 'u' :: (Text.ofChars (hexDigits 4 n) ++ t) :=
  rfl

/-- **The text does not go on with the other half** of what `p` may be half of. -/
def IsApart (p : CodePoint) (t : Text) : Prop :=
  ∀ more m behind, t = .char '\\' :: .char 'u' :: more → unit? more = some (m, behind) →
    SurrogatePair.char? p.value m = none

/-! ## One code point -/

/-- A unit that the rest does not make a pair with. -/
theorem escapedPoint?_of_isApart {p : CodePoint} {t : Text} (hp : p.value < 0x10000)
    (h : IsApart p t) :
    escapedPoint? (Text.ofChars (hexDigits 4 p.value) ++ t) = some (p, t) := by
  have hvalue : CodePoint.ofValue p.value = p := by
    rw [CodePoint.ofValue, CodePoint.ofValue?_value, Option.getD_some]
  unfold escapedPoint?
  rw [unit?_hexDigits hp, Option.bind_eq_bind, Option.bind_some]
  simp only [hvalue]
  split
  · rename_i more
    cases hu : unit? more with
    | none => rfl
    | some r =>
      obtain ⟨m, behind⟩ := r
      simp only
      rw [h more m behind rfl hu]
      rfl
  · rfl

/-- Two units stand for the number they were made of. -/
theorem surrogatePair_value {n : Nat} (hn : 0x10000 ≤ n) :
    SurrogatePair.value (0xD800 + (n - 0x10000) / 0x400) (0xDC00 + (n - 0x10000) % 0x400) = n := by
  unfold SurrogatePair.value
  omega

/-- Two units that make up a pair are read as its character. -/
theorem nextPoint?_pair {high low : Nat} {p : CodePoint} (hhigh : high < 0x10000)
    (hlow : low < 0x10000) (hpair : SurrogatePair.char? high low = some p) (t : Text) :
    nextPoint? (Text.ofChars (escapedUnit high ++ escapedUnit low) ++ t) = some (p, t) := by
  rw [ofChars_append, List.append_assoc, ofChars_escapedUnit_append, ofChars_escapedUnit_append]
  show escapedPoint? _ = _
  unfold escapedPoint?
  rw [unit?_hexDigits hhigh, Option.bind_eq_bind, Option.bind_some]
  simp only
  rw [unit?_hexDigits hlow]
  simp only
  rw [hpair]
  rfl

/-- A character beyond the first plane is the pair of its two units. -/
theorem surrogatePair_char? {p : CodePoint} (hp : 0x10000 ≤ p.value) (hmax : p.value < 0x110000) :
    SurrogatePair.char? (0xD800 + (p.value - 0x10000) / 0x400)
      (0xDC00 + (p.value - 0x10000) % 0x400) = some p := by
  have hhigh : SurrogatePair.isHigh (0xD800 + (p.value - 0x10000) / 0x400) = true := by
    rw [SurrogatePair.isHigh, Bool.and_eq_true, decide_eq_true_eq, decide_eq_true_eq]
    omega
  have hlow : SurrogatePair.isLow (0xDC00 + (p.value - 0x10000) % 0x400) = true := by
    rw [SurrogatePair.isLow, Bool.and_eq_true, decide_eq_true_eq, decide_eq_true_eq]
    omega
  rw [SurrogatePair.char?, hhigh, hlow, surrogatePair_value hp, CodePoint.ofValue,
    CodePoint.ofValue?_value]
  rfl

/-- The numbers of code points end here. -/
theorem value_lt (p : CodePoint) : p.value < 0x110000 := by
  cases p with
  | char c =>
    have : c.toNat < 0xD800 ∨ 0xDFFF < c.toNat ∧ c.toNat < 0x110000 := c.valid
    rw [CodePoint.value]
    omega
  | half i =>
    rw [CodePoint.value]
    omega

/-- **A character beyond the first plane** is read from its two units. -/
theorem nextPoint?_beyond {p : CodePoint} (hp : 0x10000 ≤ p.value) (t : Text) :
    nextPoint? (Text.ofChars (escapedUnits p.value) ++ t) = some (p, t) := by
  have hmax := value_lt p
  rw [escapedUnits, if_neg (by omega)]
  exact nextPoint?_pair (by omega) (by omega) (surrogatePair_char? hp hmax) t

/-- A code point that is escaped by one unit. -/
theorem nextPoint?_escaped {p : CodePoint} {t : Text} (hp : p.value < 0x10000)
    (h : IsApart p t) : nextPoint? (Text.ofChars (escapedUnits p.value) ++ t) = some (p, t) := by
  rw [escapedUnits, if_pos hp]
  exact escapedPoint?_of_isApart hp h

/-- A character that stands for itself. -/
theorem nextPoint?_plain {c : Char} {t : Text} (hq : c ≠ '\x22') (hb : c ≠ '\\')
    (hc : ¬c.toNat < 0x20) : nextPoint? (.char c :: t) = some (.char c, t) := by
  unfold nextPoint?
  split
  · rename_i heq
    exact absurd (CodePoint.char.inj (List.cons.inj heq).1) hb
  · rename_i heq
    exact absurd (CodePoint.char.inj (List.cons.inj heq).1) hb
  · rename_i heq
    obtain ⟨h₁, rfl⟩ := List.cons.inj heq
    obtain rfl := CodePoint.char.inj h₁
    rw [if_neg]
    simp [hq, hb, hc]
  · rename_i heq
    cases (List.cons.inj heq).1
  · rename_i heq
    cases heq

/-- What a code point can be written as: an escape by number, an escape by letter,
or itself. -/
theorem writtenPoint_cases (p : CodePoint) :
    writtenPoint p = escapedUnits p.value
      ∨ (∃ e, writtenPoint p = ['\\', e] ∧ e ≠ 'u') ∨ ∃ c, writtenPoint p = [c] ∧ c ≠ '\\' := by
  cases p with
  | half i => exact .inl rfl
  | char c =>
    unfold writtenPoint
    simp only [beq_iff_eq]
    split_ifs with h₁ h₂
    any_goals exact .inr (.inl ⟨_, rfl, by decide⟩)
    · exact .inr (.inr ⟨c, rfl, h₂⟩)
    · exact .inl rfl

/-- **What a code point is written as is read as the code point.** -/
theorem nextPoint?_writtenPoint {p : CodePoint} {t : Text} (h : IsApart p t) :
    nextPoint? (Text.ofChars (writtenPoint p) ++ t) = some (p, t) := by
  cases p with
  | half i =>
    have hi : (CodePoint.half i).value < 0x10000 := by
      show 0xD800 + i.val < 0x10000
      omega
    exact nextPoint?_escaped hi h
  | char c =>
    unfold writtenPoint
    simp only [beq_iff_eq]
    split_ifs with h₁ h₂ h₃ h₄ h₅ h₆ h₇ h₈
    · rw [h₁]; rfl
    · rw [h₂]; rfl
    · rw [h₃]; rfl
    · rw [h₄]; rfl
    · rw [h₅]; rfl
    · rw [h₆]; rfl
    · rw [h₇]; rfl
    · rw [Bool.and_eq_true, decide_eq_true_eq, decide_eq_true_eq] at h₈
      exact nextPoint?_plain h₁ h₂ (by omega)
    · rcases Nat.lt_or_ge c.toNat 0x10000 with hc | hc
      · exact nextPoint?_escaped hc h
      · exact nextPoint?_beyond (p := .char c) hc t

/-! ## A whole text -/

/-- Something is written for every code point. -/
theorem writtenPoint_ne_nil (p : CodePoint) : writtenPoint p ≠ [] := by
  intro h
  have hnext := nextPoint?_writtenPoint (p := p) (t := []) (fun _ _ _ heq => by cases heq)
  rw [h] at hnext
  cases hnext

/-- The closing quote stands for no code point, so whatever does is read on. -/
theorem textBody?_of_nextPoint? {t rest : Text} {p : CodePoint} (h : nextPoint? t = some (p, rest))
    (read : Text) (fuel : Nat) :
    textBody? read (fuel + 1) t = textBody? (p :: read) fuel rest := by
  conv => lhs; unfold textBody?
  split
  · simp [nextPoint?] at h
  · rw [h]

/-- A text that has no pairs to join goes on apart from its first code point. -/
theorem isApart_written {p : CodePoint} {s t : Text} (h : Text.joined (p :: s) = p :: s) :
    IsApart p (Text.ofChars (s.flatMap writtenPoint) ++ .char '\x22' :: t) := by
  intro more m behind heq hu
  cases s with
  | nil => cases heq
  | cons q s =>
    have hpair := (Text.joined_cons_cons_iff.mp h).1
    rw [List.flatMap_cons, ofChars_append, List.append_assoc] at heq
    -- only an escape by number goes on with `\u`
    have hescape : ∀ rest : Text, Text.ofChars (escapedUnits q.value) ++ rest
        = .char '\\' :: .char 'u' :: more → SurrogatePair.char? p.value m = none := by
      intro rest hrest
      unfold escapedUnits at hrest
      split at hrest
      · rename_i hq
        rw [ofChars_escapedUnit_append] at hrest
        obtain rfl := (List.cons.inj (List.cons.inj hrest).2).2
        rw [unit?_hexDigits hq] at hu
        obtain ⟨rfl, -⟩ := Prod.mk.inj (Option.some.inj hu)
        exact hpair
      · rename_i hq
        have hmax := value_lt q
        rw [ofChars_append, List.append_assoc, ofChars_escapedUnit_append] at hrest
        obtain rfl := (List.cons.inj (List.cons.inj hrest).2).2
        rw [unit?_hexDigits (by omega)] at hu
        obtain ⟨rfl, -⟩ := Prod.mk.inj (Option.some.inj hu)
        have hlow : SurrogatePair.isLow (0xD800 + (q.value - 0x10000) / 0x400) = false := by
          rw [SurrogatePair.isLow, Bool.and_eq_false_iff, decide_eq_false_iff_not]
          omega
        rw [SurrogatePair.char?, hlow, Bool.and_false]
        rfl
    rcases writtenPoint_cases q with hw | ⟨e, hw, he⟩ | ⟨c, hw, hc⟩
    · rw [hw] at heq
      exact hescape _ heq
    · rw [hw] at heq
      exact absurd (CodePoint.char.inj (List.cons.inj (List.cons.inj heq).2).1) he
    · rw [hw] at heq
      exact absurd (CodePoint.char.inj (List.cons.inj heq).1) hc

/-- **A text without pairs to join is read up to its closing quote.** -/
theorem textBody?_written {s : Text} (hs : s.joined = s) (read : Text) {fuel : Nat}
    (hfuel : s.length < fuel) (t : Text) :
    textBody? read fuel (Text.ofChars (s.flatMap writtenPoint) ++ .char '\x22' :: t)
      = some (read.reverse ++ s, t) := by
  induction s generalizing read fuel with
  | nil =>
    obtain ⟨k, rfl⟩ := Nat.exists_eq_succ_of_ne_zero (Nat.ne_zero_of_lt hfuel)
    rw [List.append_nil]
    rfl
  | cons p s ih =>
    obtain ⟨k, rfl⟩ := Nat.exists_eq_succ_of_ne_zero (Nat.ne_zero_of_lt hfuel)
    have hnext := nextPoint?_writtenPoint (isApart_written (t := t) hs)
    have hrest := ih (Text.joined_of_cons hs) (p :: read) (Nat.lt_of_succ_lt_succ hfuel)
    rw [List.flatMap_cons, ofChars_append, List.append_assoc]
    rw [textBody?_of_nextPoint? hnext, hrest, List.reverse_cons, List.append_assoc]
    rfl

/-- **A quoted text is read back** behind its opening quote. -/
theorem text?_written {s : Text} (hs : s.joined = s) (t : Text) :
    text? (Text.ofChars (s.flatMap writtenPoint) ++ .char '\x22' :: t) = some (s, t) := by
  have hlen : s.length ≤ (s.flatMap writtenPoint).length := by
    induction s with
    | nil => exact Nat.le_refl _
    | cons p s ih =>
      have hp := List.length_pos_iff.mpr (writtenPoint_ne_nil p)
      have hrest := ih (Text.joined_of_cons hs)
      rw [List.flatMap_cons, List.length_append, List.length_cons]
      omega
  refine textBody?_written hs [] ?_ t
  rw [List.length_append, Text.ofChars, List.length_map, List.length_cons]
  omega

end Json
end Rollout
