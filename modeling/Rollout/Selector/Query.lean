import Rollout.Json.Shape
import Rollout.Selector.Label

/-!
# Label selectors as queries

A workload selects the objects that belong to it by requirements on their
labels: pairs of key and value that must match, and expressions with an
operator. Sent to the cluster the requirements are one line of text, sorted
by key and, under one key, by their own text, so that the line depends on
the requirements alone. Whatever is no valid label is refused and never sent.
-/

namespace Rollout

/-- **What a label has to meet.** -/
inductive Requirement where
  | equals (key value : Text)
  | among (key : Text) (values : List Text)
  | notAmong (key : Text) (values : List Text)
  | present (key : Text)
  | absent (key : Text)
deriving DecidableEq, Repr

namespace Requirement

/-- The key it is about. -/
def key : Requirement → Text
  | equals k _ => k
  | among k _ => k
  | notAmong k _ => k
  | present k => k
  | absent k => k

/-- A set of values, sorted. -/
def valueList (values : List Text) : Text :=
  ("," : Text).intercalate (sortedTexts values)

/-- **Its text in a query.** -/
def text : Requirement → Text
  | equals k v => k ++ "=" ++ v
  | among k vs => k ++ " in (" ++ valueList vs ++ ")"
  | notAmong k vs => k ++ " notin (" ++ valueList vs ++ ")"
  | present k => k
  | absent k => "!" ++ k

/-- The order of a query: by key, then by text. -/
def before (a b : Requirement) : Bool :=
  if a.key = b.key then a.text.le b.text else a.key.le b.key

end Requirement

namespace Selector

/-- Ends with a selector's error. -/
def refuse {α : Type} (e : SelectorError) : Outcome α :=
  Outcome.fail (.selector e)

/-- A valid key. -/
def key : Json → Outcome Text
  | .str s => if Label.isKey s then .ok s else refuse (.badKey (.str s))
  | j => refuse (.badKey j)

/-- A valid value. -/
def value : Json → Outcome Text
  | .str s => if Label.isValue s then .ok s else refuse (.badValue (.str s))
  | j => refuse (.badValue j)

/-- The requirements of the pairs that must match. -/
def matchLabels (selector : Fields Json) : Outcome (List Requirement) := do
  let labels ← Fields.section? selector "matchLabels"
  labels.mapM fun (k, v) => do
    let k ← key (.str k)
    let v ← value v
    return .equals k v

/-- The values of an expression. Values that count as absent are none. -/
def valueItems (expression : Fields Json) : Option (List Json) :=
  match Fields.given? expression "values" with
  | none => some []
  | some v => v.elements?

/-- The requirement of a set operator. -/
def setRequirement (make : Text → List Text → Requirement) (operator key : Text)
    (items : Option (List Json)) : Outcome Requirement := do
  match items with
  | none => .error .malformed
  | some [] => refuse (.needsValue operator key)
  | some items =>
    let values ← items.mapM value
    return make key values

/-- The requirement of an operator without values. -/
def bareRequirement (make : Text → Requirement) (operator key : Text)
    (items : Option (List Json)) : Outcome Requirement :=
  match items with
  | some [] => .ok (make key)
  | _ => refuse (.takesNoValue operator key)

/-- **The requirement an expression states.** -/
def expression (j : Json) : Outcome Requirement := do
  let fs ← j.fields
  let k ← key (Fields.getD fs "key" (.str ""))
  let operator := Fields.getD fs "operator" (.str "")
  let items := valueItems fs
  match operator with
  | .str word =>
    if word = "In" then setRequirement .among "In" k items
    else if word = "NotIn" then setRequirement .notAmong "NotIn" k items
    else if word = "Exists" then bareRequirement .present "Exists" k items
    else if word = "DoesNotExist" then bareRequirement .absent "DoesNotExist" k items
    else refuse (.badOperator operator)
  | .arr _ => .error .malformed
  | .obj _ => .error .malformed
  | other => refuse (.badOperator other)

/-- **The requirements of a selector**: its labels, then its expressions. -/
def requirements (selector : Fields Json) : Outcome (List Requirement) := do
  let labels ← matchLabels selector
  let expressions ← Fields.list selector "matchExpressions"
  let others ← expressions.mapM expression
  return labels ++ others

/-- **The query of a selector.** -/
def query : Json → Outcome Text
  | .null => refuse .missing
  | .obj selector => do
    match ← requirements selector with
    | [] => refuse .empty
    | all =>
      let sorted := all.mergeSort Requirement.before
      return ("," : Text).intercalate (sorted.map Requirement.text)
  | j => refuse (.notMapping j.typeName)

end Selector
end Rollout
