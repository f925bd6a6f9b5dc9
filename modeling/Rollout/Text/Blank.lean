import Rollout.Text.Basic

/-!
# Blank characters

The characters that count as white space around a word: the controls from
tab to carriage return, the four information separators, and the Unicode
spaces. `trim` drops them at both ends of a text and nowhere else.

Numbers are a little stricter: the information separators `U+001C` to
`U+001F` do not surround a number (`isNumberBlank`).
-/

namespace Rollout

/-- **White space**, as Unicode has it. -/
def isBlank (c : Char) : Bool :=
  let n := c.toNat
  (0x9 ≤ n && n ≤ 0xD) || (0x1C ≤ n && n ≤ 0x20) || n == 0x85 || n == 0xA0 || n == 0x1680 ||
    (0x2000 ≤ n && n ≤ 0x200A) || n == 0x2028 || n == 0x2029 || n == 0x202F || n == 0x205F ||
    n == 0x3000

/-- White space that may surround a number: all of it but the information
separators. -/
def isNumberBlank (c : Char) : Bool :=
  isBlank c && !(0x1C ≤ c.toNat && c.toNat ≤ 0x1F)

/-- The characters of a class dropped at both ends of a text. -/
def trimBy (p : Char → Bool) (t : Text) : Text :=
  ((t.dropWhile (·.is p)).reverse.dropWhile (·.is p)).reverse

/-- White space dropped at both ends. -/
def trim (t : Text) : Text :=
  trimBy isBlank t

end Rollout
