import Rollout.Fields
import Rollout.Number.Binary64
import Rollout.Text.Basic

/-!
# Documents

The value type of everything that is stored in a cluster and sent to it.
Integers are unbounded and stay apart from numbers with a point; an object
keeps its fields in order. Three things are said of a value here that the rest
of the library asks for: whether it is *empty* in the sense in which an
absent setting is (`Json.truthy`), what its type is called (`Json.typeName`)
and how deep it is nested (`Json.depth`).
-/

namespace Rollout

/-- **A document.** -/
inductive Json where
  | null
  | bool (b : Bool)
  | int (i : Int)
  | float (x : Binary64)
  | str (s : Text)
  | arr (items : List Json)
  | obj (fields : List (Text × Json))
deriving Inhabited, Repr

namespace Json

/-- **A value that counts as given**: not null, false, a zero, or an empty
text, list or object. -/
def truthy : Json → Bool
  | null => false
  | bool b => b
  | int i => i != 0
  | float x => !x.isZero
  | str s => s != ""
  | arr items => !items.isEmpty
  | obj fields => !fields.isEmpty

/-- The name of a value's type in messages. -/
def typeName : Json → Text
  | null => "NoneType"
  | bool _ => "bool"
  | int _ => "int"
  | float _ => "float"
  | str _ => "str"
  | arr _ => "list"
  | obj _ => "dict"

mutual

/-- How deep containers are nested. -/
def depth : Json → Nat
  | arr items => depthOfItems items + 1
  | obj fields => depthOfFields fields + 1
  | null => 0
  | bool _ => 0
  | int _ => 0
  | float _ => 0
  | str _ => 0

/-- How deep containers are nested in the items of a list. -/
def depthOfItems : List Json → Nat
  | [] => 0
  | x :: xs => max (depth x) (depthOfItems xs)

/-- How deep containers are nested in the values of an object. -/
def depthOfFields : List (Text × Json) → Nat
  | [] => 0
  | (_, v) :: fs => max (depth v) (depthOfFields fs)

end

/-- The value is an object. -/
def isObject : Json → Bool
  | obj _ => true
  | _ => false

/-- The value is null or absent. -/
def isNull : Option Json → Bool
  | none => true
  | some null => true
  | some _ => false

end Json

namespace Fields

/-- The value under a name, or the value that stands in for it. A null that
is written out is a value. -/
def getD (fs : Fields Json) (name : Text) (fallback : Json) : Json :=
  (get? fs name).getD fallback

/-- The value under a name that is given; an empty one counts as absent. -/
def given? (fs : Fields Json) (name : Text) : Option Json :=
  (get? fs name).filter Json.truthy

end Fields
end Rollout
