import Rollout.Error
import Rollout.Json.Mapping
import Rollout.Number.Integer

/-!
# Taking documents apart

How the parts of an object are read when their shape is taken for granted.
An empty or absent part stands for an empty one; any other part has to have
the right shape, or the object is malformed.
-/

namespace Rollout
namespace Json

/-- The fields of an object. -/
def fields : Json → Outcome (Fields Json)
  | obj fs => .ok fs
  | _ => .error .malformed

/-- A value as a pair of a name and a value: a list of the two, an object of
two names or a text of two code points. Containers name nothing. -/
def asPair? : Json → Option (Json × Json)
  | arr [arr _, _] => none
  | arr [obj _, _] => none
  | arr [k, v] => some (k, v)
  | str [a, b] => some (str [a], str [b])
  | obj [(k, _), (l, _)] => some (str k, str l)
  | _ => none

/-- **A value as a mapping**: an object, or a list of pairs of which the last
of each name counts. -/
def mapping : Json → Outcome Mapping
  | obj fs => .ok (Mapping.ofFields fs)
  | arr items => Outcome.ofOption ((items.mapM asPair?).map Mapping.ofPairs)
  | _ => .error .malformed

/-- **What a value holds**: the items of a list, the names of an object or the
characters of a text. Other values hold nothing that could be gone through. -/
def elements? : Json → Option (List Json)
  | arr items => some items
  | obj fs => some (fs.map (fun f => str f.1))
  | str s => some (s.map (fun c => str [c]))
  | _ => none

/-- **A value as an integer.** A number loses what is behind its point and a
truth value counts as one or zero; a text has to spell an integer, and the
answer is `none` if it does not, as for a NaN. Other values are malformed. -/
def integer : Json → Outcome (Option Int)
  | int i => .ok (some i)
  | bool b => .ok (some (if b then 1 else 0))
  | float .nan => .ok none
  | float x => (Outcome.ofOption x.whole?).map some
  | str s => .ok (integer? s)
  | _ => .error .malformed

end Json

namespace Fields

/-- The fields of the object under a name, none if it is empty or absent. -/
def section? (fs : Fields Json) (name : Text) : Outcome (Fields Json) :=
  match given? fs name with
  | none => .ok []
  | some v => v.fields

/-- The items of the list under a name, none if it is empty or absent. -/
def list (fs : Fields Json) (name : Text) : Outcome (List Json) :=
  match given? fs name with
  | none => .ok []
  | some (.arr items) => .ok items
  | some _ => .error .malformed

/-- The mapping under a name, empty if it is empty or absent. -/
def mappingAt (fs : Fields Json) (name : Text) : Outcome Mapping :=
  match given? fs name with
  | none => .ok []
  | some v => v.mapping

/-- The value under a name as text; an absent one is the empty text. -/
def textAt (fs : Fields Json) (name : Text) : Text :=
  (getD fs name (.str "")).text

end Fields
end Rollout
