import Rollout.Number.Binary64

/-!
# Shortest decimals

A finite number is written with the fewest digits that read back as it, and
of the decimals of that length with the nearest to it, an exact tie going to
the even last digit. `nearest?` looks at one length only: the two neighbours
of the value on the grid of that many digits are the only candidates, since
a point of the grid that reads back has a neighbour that does.
`Binary64.shortest` tries the lengths in turn; seventeen digits always do,
and behind them stands the number's exact expansion, so that reading back
needs no argument about lengths.

The text (`Binary64.render`) is positional while the point falls within
`DecimalForm`'s bounds and has an exponent otherwise; a whole number keeps
`.0`.
-/

namespace Rollout

/-- **Where the positional form ends**: the point stands after at least
`-leadingZeros` and at most `maxPoint` places, and an exponent has at least
`exponentWidth` digits. -/
structure DecimalForm where
  leadingZeros : Nat
  maxPoint : Nat
  exponentWidth : Nat

/-- Documents write a number positionally from `1e-04` up to but not
including `1e+16`, and an exponent with its sign and two digits at least. -/
def documentForm : DecimalForm := ⟨3, 16, 2⟩

namespace Binary64

/-- A decimal `digits · 10 ^ exponent`. -/
structure Decimal where
  digits : Nat
  exponent : Int
deriving DecidableEq, Repr

/-- The decimal read as a number. -/
def Decimal.read (negative : Bool) (d : Decimal) : Binary64 :=
  ofDecimal negative d.digits d.exponent

/-- How many places `num / den` has before the point: the `e` with
`10 ^ (e - 1) ≤ num / den < 10 ^ e`. -/
def magnitude (num den : Nat) : Int :=
  if den ≤ num then decimalLength (num / den)
  else 1 - (decimalLength ((den - 1) / num) : Int)

/-- The value's place on the grid of step `10 ^ e`: the last point not above
it, and twice the distance to that point against one step. -/
def onGrid (num den : Nat) (e : Int) : Nat × Ordering :=
  let (a, b) :=
    if 0 ≤ e then (num, den * Nat.pow 10 e.toNat) else (num * Nat.pow 10 (-e).toNat, den)
  (a / b, compare (2 * (a % b)) b)

/-- **The decimal of `n` digits nearest to the number that reads back as
it**, if there is one. -/
def nearest? (negative : Bool) (m : Nat) (q : Int) (n : Nat) : Option Decimal :=
  let (num, den) := ratio m q
  let e := magnitude num den - n
  let (d, side) := onGrid num den e
  let below : Decimal := ⟨d, e⟩
  let above : Decimal := ⟨d + 1, e⟩
  let belowReads := below.read negative == finite negative m q
  let aboveReads := above.read negative == finite negative m q
  match belowReads, aboveReads with
  | true, true =>
    match side with
    | .lt => some below
    | .gt => some above
    | .eq => some (if d % 2 = 0 then below else above)
  | true, false => some below
  | false, true => some above
  | false, false => none

/-- All digits of a number: `m · 2 ^ q` without rounding. -/
def expansion (m : Nat) (q : Int) : Decimal :=
  if 0 ≤ q then ⟨m * Nat.pow 2 q.toNat, 0⟩ else ⟨m * Nat.pow 5 (-q).toNat, q⟩

/-- **The shortest decimal that reads back.** -/
def shortest (negative : Bool) (m : Nat) (q : Int) : Decimal :=
  match (List.range 17).findSome? (fun n => nearest? negative m q (n + 1)) with
  | some d => d
  | none => expansion m q

/-- Trailing zeros of a digit list moved into the exponent. -/
def dropTrailingZeros (ds : List Char) : List Char :=
  (ds.reverse.dropWhile (· == '0')).reverse

/-- The digits `0.ds · 10 ^ point` in the form given. `ds` is not empty and
neither starts nor ends with a zero. -/
def layout (form : DecimalForm) (ds : List Char) (point : Int) : List Char :=
  if -(form.leadingZeros : Int) ≤ point ∧ point ≤ form.maxPoint then
    if point ≤ 0 then
      '0' :: '.' :: (List.replicate (-point).toNat '0' ++ ds)
    else if ds.length ≤ point.toNat then
      ds ++ List.replicate (point.toNat - ds.length) '0' ++ ['.', '0']
    else
      ds.take point.toNat ++ '.' :: ds.drop point.toNat
  else
    let e := point - 1
    let width := Nat.toDigits 10 e.natAbs
    ds.take 1 ++ (if ds.length ≤ 1 then [] else '.' :: ds.drop 1) ++
      'e' :: (if e < 0 then '-' else '+') ::
      (List.replicate (form.exponentWidth - width.length) '0' ++ width)

/-- **The text of a number.** -/
def render : Binary64 → List Char
  | nan => "NaN".toList
  | infinite neg => (if neg then "-Infinity" else "Infinity").toList
  | finite neg m q =>
    (if neg then ['-'] else []) ++
      (if m = 0 then ['0', '.', '0']
       else
        let d := shortest neg m q
        let ds := Nat.toDigits 10 d.digits
        layout documentForm (dropTrailingZeros ds) (d.exponent + ds.length))

example : render (ofDecimal false 1 16) = "1e+16".toList := by decide +kernel
example : render (ofDecimal false 1 (-4)) = "0.0001".toList := by decide +kernel
example : render (ofDecimal true 15 (-6)) = "-1.5e-05".toList := by decide +kernel

end Binary64
end Rollout
