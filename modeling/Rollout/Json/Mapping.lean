import Rollout.Json.Equality

/-!
# Mappings

Labels and annotations are mappings from names to values. Most are written
as objects, but a list of pairs is taken as a mapping too, and there a name
need not be a text: a number, a truth value or null can stand as one. Names
of the same value are the same name, so `1`, `1.0` and `true` share an entry,
which keeps the spelling it had first.

Where only texts can be names, the entries with other names are left out
(`Mapping.fields`) or nothing is said at all (`Mapping.fields?`): names of
several types have no order in which they could be shown.
-/

namespace Rollout

/-- **A mapping**: names with values, in order. -/
abbrev Mapping := List (Json × Json)

namespace Mapping

/-- The mapping an object is. -/
def ofFields (fs : Fields Json) : Mapping :=
  fs.map (fun f => (.str f.1, f.2))

/-- **The value under a name replaced**, or added behind all others. -/
def set : Mapping → Json → Json → Mapping
  | [], name, v => [(name, v)]
  | (k, w) :: rest, name, v =>
    if k.same name then (k, v) :: rest else (k, w) :: set rest name v

/-- Entries written one after the other: of a repeated name the last value
stands at the first place. -/
def ofPairs (ps : List (Json × Json)) : Mapping :=
  ps.foldl (fun m p => set m p.1 p.2) []

/-- The entry's name is a text. -/
def field? : Json × Json → Option (Text × Json)
  | (.str k, v) => some (k, v)
  | _ => none

/-- **The entries whose names are texts.** -/
def fields (m : Mapping) : Fields Json :=
  m.filterMap field?

/-- The entries of a mapping that has no other names than texts. -/
def fields? (m : Mapping) : Option (Fields Json) :=
  m.mapM field?

/-- The value under a text. -/
def get? (m : Mapping) (name : Text) : Option Json :=
  Fields.get? m.fields name

/-- The value under a text, or the value that stands in for it. -/
def getD (m : Mapping) (name : Text) (fallback : Json) : Json :=
  Fields.getD m.fields name fallback

/-- An object is a mapping with its names. -/
@[simp] theorem fields_ofFields (fs : Fields Json) : fields (ofFields fs) = fs := by
  induction fs with
  | nil => rfl
  | cons f fs ih =>
    simp only [fields, ofFields, List.map_cons] at ih ⊢
    simp [field?, ih]

@[simp] theorem fields?_ofFields (fs : Fields Json) : fields? (ofFields fs) = some fs := by
  induction fs with
  | nil => rfl
  | cons f fs ih =>
    simp only [fields?, ofFields, List.map_cons] at ih ⊢
    simp [field?, ih]

end Mapping
end Rollout
