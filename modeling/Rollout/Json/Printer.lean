import Rollout.Json.Basic
import Rollout.Number.Shortest
import Rollout.Text.Quoted

/-!
# Writing documents

The written form of a document is printable ASCII: every other character of a
text is escaped by the four hexadecimal digits of its UTF-16 units, so a
character beyond the first plane takes two escapes and a half of a surrogate
pair one. `Separators` says what
stands between items and after a name; the compact form has no blanks.

An integer is written with all its digits. One that has more than are read
(`maxDigits`) comes from no document that was read; the writing here does not
refuse it, and so is said of shorter ones only.
-/

namespace Rollout

/-- What stands between two items and between a name and its value. -/
structure Separators where
  item : List Char
  value : List Char

/-- No blanks. -/
def Separators.compact : Separators := ⟨[','], [':']⟩

/-- A blank after each separator. -/
def Separators.spaced : Separators := ⟨[',', ' '], [':', ' ']⟩

namespace Json

/-- One UTF-16 unit, escaped. -/
def escapedUnit (n : Nat) : List Char :=
  '\\' :: 'u' :: hexDigits 4 n

/-- A code point as one or two UTF-16 units, escaped. -/
def escapedUnits (n : Nat) : List Char :=
  if n < 0x10000 then escapedUnit n
  else
    escapedUnit (0xD800 + (n - 0x10000) / 0x400) ++ escapedUnit (0xDC00 + (n - 0x10000) % 0x400)

/-- **One code point of a text**, escaped where it has to be. -/
def writtenPoint (p : CodePoint) : List Char :=
  match p with
  | .half _ => escapedUnits p.value
  | .char c =>
    if c == '\x22' then ['\\', '\x22']
    else if c == '\\' then ['\\', '\\']
    else if c == '\n' then ['\\', 'n']
    else if c == '\r' then ['\\', 'r']
    else if c == '\t' then ['\\', 't']
    else if c == '\x08' then ['\\', 'b']
    else if c == '\x0c' then ['\\', 'f']
    else if 0x20 ≤ c.toNat && c.toNat < 0x7F then [c]
    else escapedUnits p.value

/-- A text between its quotes. -/
def writtenText (t : Text) : List Char :=
  '\x22' :: (t.flatMap writtenPoint ++ ['\x22'])

mutual

/-- **The written form of a document.** -/
def written (sep : Separators) : Json → List Char
  | null => "null".toList
  | bool b => (if b then "true" else "false").toList
  | int i => (ToString.toString i).toList
  | float x => x.render
  | str s => writtenText s
  | arr [] => ['[', ']']
  | arr (x :: xs) => '[' :: (written sep x ++ writtenItems sep xs)
  | obj [] => ['\x7b', '\x7d']
  | obj ((k, v) :: fs) =>
    '\x7b' :: (writtenText k ++ sep.value ++ written sep v ++ writtenFields sep fs)

/-- The items behind the first, and the closing bracket. -/
def writtenItems (sep : Separators) : List Json → List Char
  | [] => [']']
  | x :: xs => sep.item ++ written sep x ++ writtenItems sep xs

/-- The fields behind the first, and the closing brace. -/
def writtenFields (sep : Separators) : List (Text × Json) → List Char
  | [] => ['\x7d']
  | (k, v) :: fs =>
    sep.item ++ writtenText k ++ sep.value ++ written sep v ++ writtenFields sep fs

end

/-- **The compact form.** -/
def compact (j : Json) : Text :=
  Text.ofChars (written Separators.compact j)

end Json
end Rollout
