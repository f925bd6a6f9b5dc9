/-!
# Binary floating point, 64 bits

A number with a point or an exponent is held in the binary64 format, as its
sign, mantissa and exponent, so that nothing about it is left to a machine:
`Binary64.finite neg m q` is `m · 2 ^ q` with a sign. The format's own
numbers are the canonical ones (`Binary64.Canonical`): 53 bits of mantissa,
the leading one set unless the exponent is the least.

`ofRatio` is the rounding of an exact quotient, to the nearest and on a tie
to the even mantissa; `ofDecimal` reads a decimal with it. Equality of
values is `eqv`: a zero equals the other zero and a NaN equals nothing,
itself included.
-/

namespace Rollout

/-- **A binary64 number.** -/
inductive Binary64 where
  | nan
  | infinite (negative : Bool)
  | finite (negative : Bool) (mantissa : Nat) (exponent : Int)
deriving DecidableEq, Repr, Inhabited

namespace Binary64

/-- The least exponent of a mantissa's last bit. -/
def minExponent : Int := -1074

/-- The greatest. -/
def maxExponent : Int := 971

/-- The least mantissa whose leading bit is set. -/
def leadingBit : Nat := Nat.pow 2 52

/-- The first number that needs more than 53 bits. -/
def mantissaBound : Nat := Nat.pow 2 53

/-- A number of the format: what `ofRatio` gives. -/
def Canonical : Binary64 → Prop
  | nan => True
  | infinite _ => True
  | finite _ m q =>
    m < mantissaBound ∧ minExponent ≤ q ∧ q ≤ maxExponent ∧ (leadingBit ≤ m ∨ q = minExponent)

instance : DecidablePred Canonical
  | nan => inferInstanceAs (Decidable True)
  | infinite _ => inferInstanceAs (Decidable True)
  | finite _ _ _ => inferInstanceAs (Decidable (_ ∧ _ ∧ _ ∧ _))

/-- A zero, signed. -/
def zero (negative : Bool) : Binary64 :=
  finite negative 0 minExponent

/-- `num / den` as a quotient of naturals after division by `2 ^ q`. -/
def scaled (num den : Nat) (q : Int) : Nat × Nat :=
  if 0 ≤ q then (num, den * Nat.pow 2 q.toNat) else (num * Nat.pow 2 (-q).toNat, den)

/-- The quotient rounded to the nearest natural, a half to the even one. -/
def roundHalfEven (num den : Nat) : Nat :=
  let m := num / den
  let r := num % den
  if 2 * r < den then m
  else if den < 2 * r then m + 1
  else if m % 2 = 0 then m else m + 1

/-- The exponent at which `num / den` has 53 bits before the point, or the
least exponent. -/
def exponentFor (num den : Nat) : Int :=
  let q := max ((num.log2 : Int) - den.log2 - 53) minExponent
  let (a, b) := scaled num den q
  if a / b < mantissaBound then q else q + 1

/-- **The nearest number to `num / den`**, ties to the even mantissa, beyond
the greatest finite number an infinity. -/
def ofRatio (negative : Bool) (num den : Nat) : Binary64 :=
  if num = 0 then zero negative
  else
    let q := exponentFor num den
    let (a, b) := scaled num den q
    let m := roundHalfEven a b
    let (m, q) := if m = mantissaBound then (leadingBit, q + 1) else (m, q)
    if maxExponent < q then infinite negative else finite negative m q

/-- How many decimal digits a natural has; zero has one. -/
def decimalLength (n : Nat) : Nat :=
  (Nat.toDigits 10 n).length

/-- **The nearest number to `digits · 10 ^ exponent`.** Decimals far outside
the format's range are decided by their size alone. -/
def ofDecimal (negative : Bool) (digits : Nat) (exponent : Int) : Binary64 :=
  if digits = 0 then zero negative
  else if 400 < exponent + decimalLength digits then infinite negative
  else if exponent + decimalLength digits < -400 then zero negative
  else if 0 ≤ exponent then ofRatio negative (digits * Nat.pow 10 exponent.toNat) 1
  else ofRatio negative digits (Nat.pow 10 (-exponent).toNat)

/-- The magnitude of a finite number as a quotient. -/
def ratio (m : Nat) (q : Int) : Nat × Nat :=
  if 0 ≤ q then (m * Nat.pow 2 q.toNat, 1) else (m, Nat.pow 2 (-q).toNat)

/-- An integer with the sign and size given. -/
def signed (negative : Bool) (n : Nat) : Int :=
  if negative then -(n : Int) else n

/-- **The whole part**, cut off toward zero; an infinity and a NaN have
none. -/
def whole? : Binary64 → Option Int
  | finite neg m q =>
    let (a, b) := ratio m q
    some (signed neg (a / b))
  | _ => none

/-- **Equality of values.** -/
def eqv : Binary64 → Binary64 → Bool
  | nan, _ => false
  | _, nan => false
  | infinite s, infinite t => s == t
  | finite s m q, finite t n r => (m == 0 && n == 0) || (s == t && m == n && q == r)
  | _, _ => false

/-- Equality of a number with an integer, decided exactly. -/
def eqvInt : Binary64 → Int → Bool
  | finite neg m q, i =>
    let (a, b) := ratio m q
    signed neg a == i * b
  | _, _ => false

/-- **How a number stands to an integer**, decided exactly; a NaN stands
nowhere. -/
def compareInt? : Binary64 → Int → Option Ordering
  | nan, _ => none
  | infinite neg, _ => some (if neg then .lt else .gt)
  | finite neg m q, i =>
    let (a, b) := ratio m q
    some (compare (signed neg a) (i * b))

/-- **The nearest number to the sum** of a number and an integer. -/
def plusInt : Binary64 → Int → Binary64
  | finite neg m q, i =>
    let (a, b) := ratio m q
    let sum := signed neg a + i * b
    ofRatio (decide (sum < 0)) sum.natAbs b
  | x, _ => x

/-- The number is a zero. -/
def isZero : Binary64 → Bool
  | finite _ m _ => m == 0
  | _ => false

example : ofDecimal false 1 (-1) = finite false 7205759403792794 (-56) := by decide +kernel
example : ofDecimal false 5 (-324) = finite false 1 (-1074) := by decide +kernel
example : (ofDecimal false 9999999999999999 (-16)).plusInt 3 = ofDecimal false 4 0 := by
  decide +kernel
example : ofDecimal true 1 400 = infinite true := by decide +kernel

end Binary64
end Rollout
