import Rollout.Proofs.Patch.Arrangement
import Rollout.Proofs.Patch.MergePatch

/-!
# What a patch does not mention

A patch goes through an object from map to map, and each of its maps names the fields it is
about, in three ways: as a field to be merged, in an order and in a removal. What stands behind
a field that one of them does not name is left as it is (`Patch.merge_leaves_the_rest`).

There are two ways for a map to be about fields without naming them. It may replace or delete
the map in which they stand, and it may list all fields that are to be kept. A path is passed by
(`Patch.PassesBy`) if no map on the way does either to it, up to the first map that does not
name the next field. What happens behind that field is no matter of the patch any more, and what
happens to the other fields on the way is no matter of the path, since what becomes of a field
depends on that field alone.
-/

namespace Rollout
namespace Patch

open Json (WellFormed)

/-- **A map of a patch lets a field be kept**: it says nothing of the map as a whole, and if it
lists what is kept the field is on the list. -/
structure Keeps (patch : Fields Json) (k : Text) : Prop where
  mode : Json.isNull (Fields.get? patch modeField) = true
  retained : Json.isNull (Fields.get? patch retainField) = true
    ∨ ∃ names, Fields.get? patch retainField = some (.arr names) ∧ .str k ∈ names

/-- **A map of a patch does not mention a field**, nor an order of it, nor a removal from it. -/
structure Omits (patch : Fields Json) (k : Text) : Prop where
  field : Fields.get? patch k = none
  order : Fields.get? patch (orderStem ++ k) = none
  removal : Fields.get? patch (removalStem ++ k) = none

/-- **A patch passes by a path** if the fields of the path are kept down to one that the patch
does not mention. -/
inductive PassesBy : Fields Json → List Text → Prop where
  | omits {patch : Fields Json} {k : Text} {path : List Text} (hkeeps : Keeps patch k)
      (homits : Omits patch k) : PassesBy patch (k :: path)
  | into {patch map : Fields Json} {k : Text} {path : List Text} (hkeeps : Keeps patch k)
      (hmap : Fields.get? patch k = some (.obj map)) (hpath : PassesBy map path) :
      PassesBy patch (k :: path)

variable {place : Text} {patch base : Fields Json} {k : Text} {path : List Text}
  {names? : Option (List Text)} {current held : Option Json}

theorem Keeps.mode_eq (h : Keeps patch k) (place : Text) :
    Patch.mode place patch = .ok .merge := by
  have hmode := h.mode
  unfold Patch.mode
  cases hv : Fields.get? patch modeField with
  | none => rfl
  | some v =>
    rw [hv] at hmode
    cases v with
    | null => rfl
    | _ => cases hmode

/-- The texts of a list that holds nothing else are all read. -/
theorem mem_of_mapM_text {items : List Json} {texts : List Text}
    (h : items.mapM (fun j => match j with | .str s => some s | _ => none) = some texts)
    (hk : .str k ∈ items) : k ∈ texts := by
  induction items generalizing texts with
  | nil => cases hk
  | cons j items ih =>
    rw [List.mapM_cons] at h
    obtain ⟨s, hs, h⟩ := Option.bind_eq_some_iff.mp h
    obtain ⟨rest, hrest, h⟩ := Option.bind_eq_some_iff.mp h
    cases h
    rcases List.mem_cons.mp hk with rfl | hk
    · cases hs
      exact List.mem_cons_self
    · exact List.mem_cons_of_mem s (ih hrest hk)

/-- What is on the list is kept. -/
theorem Keeps.keptAt_eq (h : Keeps patch k) (hnames : retained? place patch = .ok names?)
    (held : Option Json) : keptAt names? k held = held := by
  unfold retained? at hnames
  rcases h.retained with hnull | ⟨names, hlisted, hk⟩
  · cases hv : Fields.get? patch retainField with
    | none =>
      rw [hv] at hnames
      cases hnames
      rfl
    | some v =>
      rw [hv] at hnames hnull
      cases v with
      | null =>
        cases hnames
        rfl
      | _ => cases hnull
  · simp only [hlisted] at hnames
    split at hnames
    · rename_i texts htexts
      cases hnames
      exact if_pos (List.contains_iff_mem.mpr (mem_of_mapM_text htexts hk))
    · cases hnames

/-- A field that is not mentioned holds what it held. -/
theorem Omits.fieldAfter_eq (homits : Omits patch k) (hkeeps : Keeps patch k)
    (hnames : retained? place patch = .ok names?) (current : Option Json) :
    fieldAfter place patch names? k current = .ok current := by
  have hdata : Fields.get? (dataFields patch) k = none := by
    rw [get?_dataFields, homits.field, ite_self]
  unfold fieldAfter Fields.revised
  rw [hkeeps.keptAt_eq hnames, hdata, get?_directivesOf, get?_directivesOf, homits.order,
    homits.removal]
  rfl

/-! ## Behind a field -/

/-- An arranged field has the same behind it: there is nothing behind a list. -/
theorem bind_at?_of_arranged (h : arranged place patch k current = .ok held) (k' : Text) :
    held.bind (·.at? (k' :: path)) = current.bind (·.at? (k' :: path)) := by
  by_cases hlist : ∃ items, current = some (.arr items)
  · obtain ⟨items, rfl⟩ := hlist
    obtain ⟨sorted, rfl, -⟩ := exists_isArranged h
    rfl
  · rw [arranged_of_not_arr fun items hi => hlist ⟨items, hi⟩] at h
    rw [Except.ok.inj h]

/-- The map that stands at a field has the same behind it as the field. -/
theorem at?_of_mapAt (h : mapAt place current = .ok base) (k' : Text) :
    (Json.obj base).at? (k' :: path) = current.bind (·.at? (k' :: path)) := by
  unfold mapAt at h
  split at h <;> cases h <;> rfl

/-- **What a patch passes by is left as it is**, in a map under the patch. -/
theorem PassesBy.at?_merged (h : PassesBy patch path) (hpatch : WellFormed (.obj patch))
    {result? : Option (Fields Json)} (hm : merged place base patch = .ok result?) :
    ∃ result, result? = some result ∧ (Json.obj result).at? path = (Json.obj base).at? path := by
  induction h generalizing place base result? with
  | @omits patch k path hkeeps homits =>
    obtain ⟨hd, -⟩ := Json.wellFormed_obj_iff.mp hpatch
    obtain ⟨names?, -, result, hnames, -, rfl, -, hafter⟩ :=
      fieldAfter_of_merged hd (hkeeps.mode_eq place) hm
    have hk := Except.ok.inj ((homits.fieldAfter_eq hkeeps hnames _).symm.trans (hafter k))
    refine ⟨result, rfl, ?_⟩
    show (Fields.get? result k).bind _ = (Fields.get? base k).bind _
    rw [hk]
  | @into patch map k path hkeeps hmap hpath ih =>
    obtain ⟨hd, -⟩ := Json.wellFormed_obj_iff.mp hpatch
    obtain ⟨names?, -, result, hnames, -, rfl, -, hafter⟩ :=
      fieldAfter_of_merged hd (hkeeps.mode_eq place) hm
    refine ⟨result, rfl, ?_⟩
    have hk := hafter k
    rw [fieldAfter_eq, hkeeps.keptAt_eq hnames] at hk
    obtain ⟨data, hdata, hk⟩ := Outcome.bind_eq_ok_iff.mp hk
    obtain ⟨k', path, rfl⟩ : ∃ k' rest, path = k' :: rest := by
      cases hpath <;> exact ⟨_, _, rfl⟩
    show (Fields.get? result k).bind (·.at? (k' :: path))
      = (Fields.get? base k).bind (·.at? (k' :: path))
    rw [bind_at?_of_arranged hk]
    unfold Fields.revised at hdata
    rw [get?_dataFields, hmap] at hdata
    cases hdirective : isDirective k with
    | true =>
      -- a field with a directive's name is not there to be merged
      rw [hdirective, if_pos rfl] at hdata
      rw [Except.ok.inj hdata]
    | false =>
      rw [hdirective, if_neg Bool.false_ne_true] at hdata
      obtain ⟨fs, hfs, hdata⟩ := Outcome.bind_eq_ok_iff.mp hdata
      obtain ⟨result?, hresult, hdata⟩ := Outcome.bind_eq_ok_iff.mp hdata
      cases hdata
      obtain ⟨merged, rfl, hat⟩ := ih (hpatch.get? hmap) hresult
      exact hat.trans (at?_of_mapAt hfs k')

/-- **A merge leaves what the patch does not mention as it is.** -/
theorem merge_leaves_the_rest {patch base result : Fields Json} {path : List Text}
    (hpatch : WellFormed (.obj patch)) (hpath : PassesBy patch path)
    (h : mergedObject base patch = .ok result) :
    (Json.obj result).at? path = (Json.obj base).at? path := by
  obtain ⟨result?, hmerged, h⟩ := Outcome.bind_eq_ok_iff.mp h
  obtain ⟨result', rfl, hat⟩ := hpath.at?_merged hpatch hmerged
  cases h
  exact hat

/-- An object with a container, finalizers and labels. -/
def labelledWeb : Fields Json :=
  [("spec", .obj [("replicas", .int 2),
    ("template", .obj [("labels", .obj [("app", .str "web"), ("tier", .null)]),
      ("containers", .arr [.obj [("name", .str "web")]]),
      ("finalizers", .arr [.str "a", .str "b"])])])]

/-- A patch that keeps nothing but the template, adds a container and takes out a finalizer. -/
def webWithLog : Fields Json :=
  [("spec", .obj [("$retainKeys", .arr [.str "template"]),
    ("template", .obj [("$patch", .null), ("containers", .arr [.obj [("name", .str "log")]]),
      ("$deleteFromPrimitiveList/finalizers", .arr [.str "a"])])])]

theorem merge_leaves_the_rest_webWithLog :
    ∃ result, mergedObject labelledWeb webWithLog = .ok result
      ∧ (Json.obj result).at? ["spec", "template", "labels"]
        = some (.obj [("app", .str "web"), ("tier", .null)]) := by
  have hpath : PassesBy webWithLog ["spec", "template", "labels"] :=
    .into ⟨rfl, .inl rfl⟩ rfl (.into ⟨rfl, .inr ⟨_, rfl, List.mem_cons_self⟩⟩ rfl
      (.omits ⟨rfl, .inl rfl⟩ ⟨rfl, rfl, rfl⟩))
  have hmerged : mergedObject labelledWeb webWithLog = .ok [("spec", .obj [("template",
      .obj [("labels", .obj [("app", .str "web"), ("tier", .null)]),
        ("containers", .arr [.obj [("name", .str "web")], .obj [("name", .str "log")]]),
        ("finalizers", .arr [.str "b"])])])] := by rfl
  refine ⟨_, hmerged, ?_⟩
  rw [merge_leaves_the_rest (by decide) hpath hmerged]
  rfl

end Patch
end Rollout
