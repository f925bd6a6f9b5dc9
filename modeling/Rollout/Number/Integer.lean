import Rollout.Text.Blank
import Rollout.Text.DecimalDigit

/-!
# Reading integers

A whole number is written as an optional sign and decimal digits of any
script, white space around it allowed; single underscores may stand between
digits. No number has more than `maxDigits` digits, leading zeros included:
a longer text is refused and not read slowly.
-/

namespace Rollout

/-- The most digits an integer may be written with. -/
def maxDigits : Nat := 4300

/-- The number a list of decimal digits stands for. -/
def ofDigits (ds : List Nat) : Nat :=
  ds.foldl (fun n d => 10 * n + d) 0

/-- The values of digits that follow a digit: each may come after one
underscore. -/
def digitTail? : List Char → Option (List Nat)
  | [] => some []
  | '_' :: c :: r => do
    let d ← digitValue? c
    let ds ← digitTail? r
    return d :: ds
  | c :: r => do
    let d ← digitValue? c
    let ds ← digitTail? r
    return d :: ds

/-- The values of a run of digits that is not empty. -/
def digits? : List Char → Option (List Nat)
  | [] => none
  | c :: r => do
    let d ← digitValue? c
    let ds ← digitTail? r
    return d :: ds

/-- A natural number of at most `maxDigits` digits. -/
def natural? (cs : List Char) : Option Nat := do
  let ds ← digits? cs
  if ds.length ≤ maxDigits then return ofDigits ds else none

/-- **The integer a text spells**, if it spells one. -/
def integer? (t : Text) : Option Int := do
  match ← (trimBy isNumberBlank t).chars? with
  | '-' :: r => (natural? r).map (fun n => -(n : Int))
  | '+' :: r => (natural? r).map Int.ofNat
  | cs => (natural? cs).map Int.ofNat

example : integer? " +1_0\n" = some 10 := by decide
example : integer? "1__0" = none := by decide
example : integer? "- 1" = none := by decide

end Rollout
