import Rollout.Json.Basic
import Rollout.Number.Shortest
import Rollout.Text.Quoted

/-!
# Documents as text for people

A value placed into a message or a table stands as itself when it is a text
and otherwise in its shown form (`Json.shown`): `None`, `True`, `False`,
numbers in their shortest form, lists in brackets and objects in braces with
every text inside them quoted.
-/

namespace Rollout
namespace Json

/-- The shown form of a number with a point. -/
def shownNumber : Binary64 → Text
  | .nan => "nan"
  | .infinite neg => if neg then "-inf" else "inf"
  | x => Text.ofChars x.render

mutual

/-- **The shown form of a value**, texts quoted. -/
def shown : Json → Text
  | null => "None"
  | bool b => if b then "True" else "False"
  | int i => Text.ofInt i
  | float x => shownNumber x
  | str s => quoted s
  | arr items => "[" ++ (", " : Text).intercalate (shownItems items) ++ "]"
  | obj fields => "\x7b" ++ (", " : Text).intercalate (shownFields fields) ++ "\x7d"

/-- The shown forms of a list's items. -/
def shownItems : List Json → List Text
  | [] => []
  | x :: xs => shown x :: shownItems xs

/-- The shown forms of an object's fields. -/
def shownFields : List (Text × Json) → List Text
  | [] => []
  | (k, v) :: fs => (quoted k ++ ": " ++ shown v) :: shownFields fs

end

/-- **A value as it stands in a line of text.** -/
def text : Json → Text
  | str s => s
  | v => v.shown

end Json
end Rollout
