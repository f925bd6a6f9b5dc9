import Rollout.Text.Basic

/-!
# Surrogate pairs

A character beyond the first plane can be spelled by two halves, a high one
and a low one behind it. Where the halves come as code points of their own
they stay two, and the text is another one than the text with the character.
Written and read again the two cannot be told apart any more: every pair has
become its character (`Text.joined`), and what is left of halves is alone.
-/

namespace Rollout
namespace SurrogatePair

/-- The number of a high half. -/
def isHigh (n : Nat) : Bool := 0xD800 ≤ n && n < 0xDC00

/-- The number of a low half. -/
def isLow (n : Nat) : Bool := 0xDC00 ≤ n && n < 0xE000

/-- The number of the code point that a high and a low half spell. -/
def value (high low : Nat) : Nat :=
  0x10000 + (high - 0xD800) * 0x400 + (low - 0xDC00)

/-- The character that two numbers spell, if they are the halves of a pair. -/
def char? (high low : Nat) : Option CodePoint :=
  if isHigh high && isLow low then some (.ofValue (value high low)) else none

end SurrogatePair

namespace Text

/-- **A text with every pair of halves put together.** -/
def joined : Text → Text
  | p :: q :: rest =>
    match SurrogatePair.char? p.value q.value with
    | some c => c :: joined rest
    | none => p :: joined (q :: rest)
  | [p] => [p]
  | [] => []

/-- A character opens no pair. -/
theorem isHigh_toNat (c : Char) : SurrogatePair.isHigh c.toNat = false := by
  have h : c.toNat < 0xD800 ∨ 0xDFFF < c.toNat ∧ c.toNat < 0x110000 := c.valid
  simp only [SurrogatePair.isHigh, Bool.and_eq_false_iff, decide_eq_false_iff_not]
  omega

/-- **A text of characters has no pairs to join.** -/
@[simp] theorem joined_ofChars (cs : List Char) : joined (ofChars cs) = ofChars cs := by
  induction cs with
  | nil => rfl
  | cons c cs ih =>
    cases cs with
    | nil => rfl
    | cons d cs =>
      have hc : SurrogatePair.char? (CodePoint.char c).value (CodePoint.char d).value = none := by
        simp [SurrogatePair.char?, CodePoint.value, isHigh_toNat]
      simp only [ofChars, List.map_cons] at ih ⊢
      rw [joined, hc, ih]

example : joined [.half 0x3D, .half 0x3D, .half 0x600, .half 0x600] =
    [.half 0x3D, .char '😀', .half 0x600] := by decide

end Text
end Rollout
