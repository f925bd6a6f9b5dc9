import Rollout.Text.Basic
import Rollout.Text.Lines

/-!
# Labels

A label's value is empty or a *name*: at most 63 letters, digits, dashes,
underscores and dots of ASCII, with a letter or digit at both ends. A
label's key is a name, which a prefix may qualify: dot-separated parts of
small letters, digits and dashes, each with a letter or digit at both ends,
and a slash. Both may be followed by one line feed, which is not part of
the name.
-/

namespace Rollout
namespace Label

/-- A small letter or a digit. -/
def isSmallAlnum (c : Char) : Bool :=
  ('a' ≤ c && c ≤ 'z') || ('0' ≤ c && c ≤ '9')

/-- A letter or a digit. -/
def isAlnum (c : Char) : Bool :=
  isSmallAlnum c || ('A' ≤ c && c ≤ 'Z')

/-- A character of a prefix's part. -/
def isPartChar (c : Char) : Bool :=
  isSmallAlnum c || c == '-'

/-- A character of a name. -/
def isNameChar (c : Char) : Bool :=
  isAlnum c || c == '-' || c == '_' || c == '.'

/-- The first and the last character are as `p` says. -/
def endsWith (p : Char → Bool) (cs : List Char) : Bool :=
  cs.head?.any p && cs.getLast?.any p

/-- **A name.** -/
def isName (cs : List Char) : Bool :=
  endsWith isAlnum cs && cs.all isNameChar && cs.length ≤ 63

/-- A part of a prefix. -/
def isPart (cs : List Char) : Bool :=
  endsWith isSmallAlnum cs && cs.all isPartChar

/-- The parts between the dots. -/
def isPrefixText (cs : List Char) : Bool :=
  (pieces '.' cs).all isPart

/-- **A qualified name**: a name, alone or behind a prefix and a slash. -/
def isQualifiedName (cs : List Char) : Bool :=
  match cut? '/' cs with
  | none => isName cs
  | some (front, name) => isPrefixText front && isName name

/-- A text without the one line feed it may end in. -/
def withoutLineEnd (cs : List Char) : List Char :=
  if cs.getLast? = some '\n' then cs.dropLast else cs

/-- A text that serves as a key. -/
def isKey (t : Text) : Bool :=
  t.chars?.any fun cs => isQualifiedName (withoutLineEnd cs)

/-- A text that serves as a value. -/
def isValue (t : Text) : Bool :=
  t.chars?.any fun cs => (withoutLineEnd cs).isEmpty || isName (withoutLineEnd cs)

end Label
end Rollout
