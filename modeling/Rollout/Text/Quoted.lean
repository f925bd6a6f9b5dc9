import Rollout.Text.Basic
import Rollout.Text.Printable

/-!
# Quoted text

How a text is shown inside a message or a printed list: between single
quotes, or between double quotes when it holds a single quote and no double
one. A backslash and the quote in use are escaped by a backslash, line feed,
carriage return and tab by their letters, and every other code point that is
no printable character by its number in two, four or eight hexadecimal
digits. What is shown has no halves of surrogate pairs any more.
-/

namespace Rollout

/-- The lowest `width` hexadecimal digits of `n`, small letters. -/
def hexDigits : Nat → Nat → List Char
  | 0, _ => []
  | width + 1, n => hexDigits width (n / 16) ++ [Nat.digitChar (n % 16)]

/-- A code point escaped by its number. -/
def escapedValue (n : Nat) : List Char :=
  if n < 0x100 then '\\' :: 'x' :: hexDigits 2 n
  else if n < 0x10000 then '\\' :: 'u' :: hexDigits 4 n
  else '\\' :: 'U' :: hexDigits 8 n

/-- One code point between quotes of the kind `quote`. -/
def quotedPoint (quote : Char) (p : CodePoint) : List Char :=
  match p with
  | .half _ => escapedValue p.value
  | .char c =>
    if c == quote || c == '\\' then ['\\', c]
    else if c == '\n' then ['\\', 'n']
    else if c == '\r' then ['\\', 'r']
    else if c == '\t' then ['\\', 't']
    else if isPrintable c then [c]
    else escapedValue p.value

/-- The quote a text is shown between. -/
def quoteFor (t : Text) : Char :=
  if t.contains '\x27' && !t.contains '\x22' then '\x22' else '\x27'

/-- **A text between quotes.** -/
def quoted (t : Text) : Text :=
  let q := quoteFor t
  Text.ofChars (q :: t.flatMap (quotedPoint q) ++ [q])

end Rollout
