import Rollout.Json.Shape

/-!
# Parts of a template

A template is described only if its parts have their types. A part that is
absent or null is empty; any other part must be the map or the list it is
meant to be, and a wrong one is reported by its name.
-/

namespace Rollout
namespace Template

/-- Ends with a template that cannot be described. -/
def refuse {α : Type} (part wanted : Text) (found : Json) : Outcome α :=
  Outcome.fail (.conversion ⟨part, wanted, found.typeName⟩)

/-- A value that must be a map. -/
def asMap (part : Text) : Json → Outcome (Fields Json)
  | .null => .ok []
  | .obj fs => .ok fs
  | j => refuse part "mapping" j

/-- A value that must be a list. -/
def asList (part : Text) : Json → Outcome (List Json)
  | .null => .ok []
  | .arr items => .ok items
  | j => refuse part "list" j

/-- **The map under a name.** -/
def mapAt (part : Text) (fs : Fields Json) (name : Text) : Outcome (Fields Json) :=
  asMap part (Fields.getD fs name .null)

/-- **The list under a name.** -/
def listAt (part : Text) (fs : Fields Json) (name : Text) : Outcome (List Json) :=
  asList part (Fields.getD fs name .null)

/-- The value under a name as text, with the text that stands in for an
absent one. -/
def textOr (fs : Fields Json) (name fallback : Text) : Text :=
  (Fields.getD fs name (.str fallback)).text

/-- Fields by the order of their names. -/
def byName (fs : Fields Json) : Fields Json :=
  fs.mergeSort (fun a b => a.1.le b.1)

end Template
end Rollout
