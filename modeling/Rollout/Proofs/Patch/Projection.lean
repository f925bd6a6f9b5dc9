import Rollout.Proofs.Json.Parts
import Rollout.Proofs.Patch.Idempotence
import Rollout.Proofs.Patch.Plain

/-!
# Taking directives out is a projection

What replaces is taken over without its directives (`Json.stripped`). What is left has none, a
document that has none is left as it is, and no other is, so that taking directives out is a
projection onto the documents without directives (`Patch.stripped_is_projection`).

A projection may still throw too much away. This one does not: of the parts of a document
exactly those are left that are data (`Json.isData`), in their order and each where it was, and
nothing but the directives inside is missing from them (`Json.outline_stripped`). Two rules say
what is not data. A field with a directive's name goes with all that is behind it, wherever it
stands, but an object that holds nothing but a mode goes only where it is the item of a list.
Whether it is such an item is settled before anything is taken out of it: an item with two
directives and nothing else is left, and is empty.

A map of a patch that replaces, and a list that does, therefore come out of the merge as they
were recorded if they have no directives but the mark that says that they replace, and without
directives at any rate (`Patch.IsTakenOver`).
-/

namespace Rollout

namespace Json

/-- **A document is left as it is iff it has no directives.** -/
theorem stripped_eq_self_iff {j : Json} : j.stripped = j ↔ everywhere isPlainPart j = true :=
  ⟨fun h => h ▸ plain_stripped j, stripped_of_plain⟩

/-! ## What is left -/

/-- The step goes into a directive. -/
def Step.isDirective : Step → Bool
  | .field k => Patch.isDirective k
  | .item => false

/-- **A part of a document is data** if no step to it goes into a directive and it is not an
item that is nothing but a mode. -/
def isData (p : List Step × Json) : Bool :=
  p.1.all (fun s => !s.isDirective) && !(p.1.getLast? == some .item && Patch.isBareMode p.2)

@[simp] theorem isData_field (k : Text) (x : Json) :
    isData ([.field k], x) = !Patch.isDirective k := by
  simp [isData, Step.isDirective]

@[simp] theorem isData_item (x : Json) : isData ([.item], x) = !Patch.isBareMode x := by
  simp [isData, Step.isDirective]

theorem isData_cons_cons (s s' : Step) (path : List Step) (x : Json) :
    isData (s :: s' :: path, x) = (!s.isDirective && isData (s' :: path, x)) := by
  simp only [isData, List.all_cons, List.getLast?_cons_cons, Bool.and_assoc]

theorem shell_stripped (j : Json) : j.stripped.shell = j.shell := by
  cases j <;> rfl

/-- The children that are data are left, less the directives in them. -/
theorem children_stripped (j : Json) :
    j.stripped.children
      = (j.children.filter fun c => isData ([c.1], c.2)).map fun c => (c.1, c.2.stripped) := by
  cases j with
  | arr items =>
    rw [stripped, strippedItems_eq, children, children, List.filter_map, List.map_map,
      List.map_map]
    exact congrArg (List.map _) (List.filter_congr fun x _ => (isData_item x).symm)
  | obj fs =>
    rw [stripped, strippedFields_eq, children, children, List.filter_map, List.map_map,
      List.map_map, Patch.dataFields]
    exact congrArg (List.map _) (List.filter_congr fun f _ => (isData_field f.1 f.2).symm)
  | _ => rfl

/-- There is no data inside an object that holds nothing but a mode. -/
theorem isData_eq_false_of_isBareMode {j x : Json} (hj : Patch.isBareMode j = true) {s : Step}
    {path : List Step} (h : (s :: path, x) ∈ j.parts) : isData (s :: path, x) = false := by
  obtain ⟨c, hc, rfl, -⟩ := exists_child_of_cons_mem_parts h
  unfold Patch.isBareMode at hj
  split at hj
  · obtain rfl := List.mem_singleton.mp hc
    obtain rfl := beq_iff_eq.mp hj
    rfl
  · cases hj

/-- **A part of a child is data of the whole** if the child is, and it is data of the child. -/
theorem isData_behind (c : Step × Json) {p : List Step × Json} (hp : p ∈ c.2.parts) :
    isData (behind c.1 p) = (isData ([c.1], c.2) && isData p) := by
  obtain ⟨path, x⟩ := p
  cases path with
  | nil =>
    obtain rfl := eq_of_nil_mem_parts hp
    exact (Bool.and_true _).symm
  | cons s path =>
    obtain ⟨s', j⟩ := c
    rw [behind, isData_cons_cons]
    cases s' with
    | field k => rw [isData_field, Step.isDirective]
    | item =>
      rw [isData_item, Step.isDirective, Bool.not_false, Bool.true_and]
      cases hj : Patch.isBareMode j with
      | false => rw [Bool.not_false, Bool.true_and]
      | true =>
        -- the child goes as an item, and what is in it goes by its own first step
        rw [isData_eq_false_of_isBareMode hj hp, Bool.and_false]

/-- The parts of a child that are data of the whole. -/
theorem filter_isData_behind (c : Step × Json) :
    (c.2.parts.map (behind c.1)).filter isData
      = if isData ([c.1], c.2) then (c.2.parts.filter isData).map (behind c.1) else [] := by
  have hparts : c.2.parts.filter (isData ∘ behind c.1)
      = c.2.parts.filter fun p => isData ([c.1], c.2) && isData p :=
    List.filter_congr fun _ hp => isData_behind c hp
  rw [List.filter_map, hparts]
  cases isData ([c.1], c.2) with
  | true => rfl
  | false => exact congrArg (List.map _) (List.filter_false _)

/-- **What is left of a document shows its parts that are data**, and no others. -/
theorem outline_stripped (j : Json) :
    j.stripped.outline = (j.parts.filter isData).map outlined := by
  have hchildren : ∀ cs : List (Step × Json),
      (∀ c ∈ cs, c.2.stripped.outline = (c.2.parts.filter isData).map outlined) →
      (((cs.filter fun c => isData ([c.1], c.2)).map fun c => (c.1, c.2.stripped)).flatMap
          fun c => c.2.outline.map (behind c.1))
        = ((cs.flatMap fun c => c.2.parts.map (behind c.1)).filter isData).map outlined := by
    intro cs h
    induction cs with
    | nil => rfl
    | cons c cs ih =>
      obtain ⟨hc, hcs⟩ := List.forall_mem_cons.mp h
      rw [List.filter_cons, List.flatMap_cons, List.filter_append, List.map_append,
        filter_isData_behind, ← ih hcs]
      split
      · rw [List.map_cons, List.flatMap_cons, hc, List.map_map, List.map_map]
        rfl
      · rfl
  induction j using Json.induction_children with
  | step j ih =>
    rw [outline_eq, shell_stripped, children_stripped, parts_eq, hchildren j.children ih]
    rfl

/-- **A document that is the same as what is left of it has no directives.** -/
theorem plain_of_same_stripped {j : Json} (hj : WellFormed j) (h : same j.stripped j = true) :
    everywhere isPlainPart j = true := by
  induction j using Json.induction with
  | arr items ih =>
    have hs := wellFormed_arr_iff.mp hj
    rw [stripped, strippedItems_eq, same, sameItems_iff] at h
    -- the lists are of one length, so that no item went
    have hkept : items.filter (fun x => !Patch.isBareMode x) = items := by
      refine List.filter_sublist.eq_of_length_le ?_
      rw [← h.length_eq, List.length_map]
    rw [hkept, List.forall₂_map_left_iff, List.forall₂_same] at h
    exact everywhere_arr_iff.mpr ⟨rfl, fun x hx => ih x hx (hs x hx) (h x hx)⟩
  | obj fs ih =>
    obtain ⟨hd, hs⟩ := wellFormed_obj_iff.mp hj
    rw [stripped, strippedFields_eq, same, Bool.and_eq_true, beq_iff_eq, sameFields_iff,
      List.length_map] at h
    obtain ⟨hlength, hfields⟩ := h
    have hkept : Patch.dataFields fs = fs := List.filter_sublist.eq_of_length_le hlength.ge
    rw [hkept] at hfields
    refine everywhere_obj_iff.mpr ⟨isPlainPart_obj_iff.mpr fun f hf => ?_, fun f hf => ?_⟩
    · rw [← hkept] at hf
      exact Bool.not_eq_true' _ ▸ (List.mem_filter.mp hf).2
    · obtain ⟨w, hw, hsame⟩ := hfields _ (List.mem_map_of_mem hf)
      obtain rfl : f.2 = w :=
        Option.some.inj (((Fields.get?_eq_some_iff hd).mpr hf).symm.trans hw)
      exact ih f hf (hs f hf) hsame
  | _ => rfl

end Json

namespace Patch

open Json (everywhere isPlainPart WellFormed isData outlined)

/-! ## What replaces -/

/-- **A value is taken over as it is recorded**: without directives, and exactly as recorded
iff it was recorded without. -/
structure IsTakenOver (recorded held : Json) : Prop where
  clean : everywhere isPlainPart held = true
  exact_iff : held = recorded ↔ everywhere isPlainPart recorded = true

theorem isTakenOver_stripped (j : Json) : IsTakenOver j j.stripped :=
  ⟨Json.plain_stripped j, Json.stripped_eq_self_iff⟩

/-- **A map that replaces is taken over**, less the mark, whatever is there. -/
theorem exists_merged_of_replaces (path : Text) (base : Fields Json) {patch : Fields Json}
    (h : Fields.get? patch modeField = some (.str "replace")) :
    ∃ fs, merged path base patch = .ok (some fs)
      ∧ IsTakenOver (.obj (Fields.erase patch modeField)) (.obj fs) := by
  have hmode : mode path patch = .ok .replace := by
    rw [mode, h]
    rfl
  refine ⟨_, merged_of_replace hmode base, ?_⟩
  rw [← strippedFields_erase_modeField]
  exact isTakenOver_stripped _

/-- The marks are taken over by nobody. -/
theorem strippedItems_filter (items : List Json) :
    Json.strippedItems (items.filter fun x => !isBareMode x) = Json.strippedItems items := by
  rw [Json.strippedItems_eq, Json.strippedItems_eq, List.filter_filter]
  simp only [Bool.and_self]

/-- **A list that replaces is taken over**, less the marks, whatever is there. -/
theorem exists_listedBy_of_replaces (path field : Text) (base : List Json) {items : List Json}
    (h : items.any (hasMode "replace") = true ∨ mergeKey? field = none ∧ isUnited field = false) :
    ∃ kept, listedBy path field base items = .ok kept
      ∧ IsTakenOver (.arr (items.filter fun x => !isBareMode x)) (.arr kept) := by
  have hlisted : listedBy path field base items = .ok (Json.strippedItems items) := by
    unfold listedBy listed
    rcases h with h | ⟨hkey, hunited⟩
    · rw [if_pos h]
    · rw [hkey, hunited]
      exact ite_self _
  refine ⟨_, hlisted, ?_⟩
  rw [← strippedItems_filter]
  exact isTakenOver_stripped _

/-- **Taking the directives out of a document is a projection onto the documents without
directives.** What is left has none at any depth. It is the document itself iff the document has
none, which a comparison of the two tells as well, and nothing more can be taken out of it. Of
all documents it is the one that shows the parts that are data, and no others.

A map that replaces, at whatever place of a patch, is therefore taken over as it is recorded, and
so is a list that replaces, be it because it is marked or because lists of its field always
do. -/
theorem stripped_is_projection (j : Json) :
    everywhere isPlainPart j.stripped = true
      ∧ (j.stripped = j ↔ everywhere isPlainPart j = true)
      ∧ (WellFormed j → (j.stripped.same j = true ↔ everywhere isPlainPart j = true))
      ∧ j.stripped.stripped = j.stripped
      ∧ (∀ w : Json, w = j.stripped ↔ w.outline = (j.parts.filter isData).map outlined)
      ∧ (∀ (path : Text) (base patch : Fields Json),
        Fields.get? patch modeField = some (.str "replace") →
        ∃ fs, merged path base patch = .ok (some fs)
          ∧ IsTakenOver (.obj (Fields.erase patch modeField)) (.obj fs))
      ∧ ∀ (path field : Text) (base items : List Json),
        (items.any (hasMode "replace") = true ∨ mergeKey? field = none ∧ isUnited field = false) →
        ∃ kept, listedBy path field base items = .ok kept
          ∧ IsTakenOver (.arr (items.filter fun x => !isBareMode x)) (.arr kept) := by
  have hclean := Json.plain_stripped j
  refine ⟨hclean, Json.stripped_eq_self_iff,
    fun hj => ⟨Json.plain_of_same_stripped hj, fun h => ?_⟩,
    Json.stripped_of_plain hclean, fun w => ?_,
    fun path base _ h => exists_merged_of_replaces path base h,
    fun path field base _ h => exists_listedBy_of_replaces path field base h⟩
  · rw [Json.stripped_of_plain h]
    exact Json.same_refl hj
  · rw [← Json.outline_stripped]
    exact ⟨congrArg Json.outline, Json.outline_inj⟩

/-- A template that replaces, and has no other directive. -/
def replacingTemplate : Fields Json :=
  [("$patch", .str "replace"),
   ("labels", .obj [("app", .str "web"), ("tier", .null)]),
   ("args", .arr [.str "--a", .arr [.str "--a"], .str "--a"])]

/-- Containers that replace, of which the first has two directives and nothing else. -/
def replacingContainers : List Json :=
  [.obj [("$patch", .str "merge"), ("$retainKeys", .arr [])],
   .obj [("$patch", .str "replace")],
   .obj [("name", .str "log"), ("$note", .arr [.obj [("name", .str "web")]])]]

/-- The template comes out as it is recorded, and the containers come out clean, the first of
them empty. -/
theorem stripped_is_projection_replacing :
    (Json.obj replacingTemplate).stripped.same (.obj replacingTemplate) = false
      ∧ merged "spec.template" [("args", .int 1)] replacingTemplate
        = .ok (some (Fields.erase replacingTemplate modeField))
      ∧ listedBy "containers" "containers" [.null] replacingContainers
        = .ok [.obj [], .obj [("name", .str "log")]]
      ∧ everywhere isPlainPart (.arr [.obj [], .obj [("name", .str "log")]]) = true := by
  obtain ⟨-, -, hsame, -, -, hmap, hlist⟩ := stripped_is_projection (.obj replacingTemplate)
  obtain ⟨fs, hmerged, hfs⟩ := hmap "spec.template" [("args", .int 1)] replacingTemplate rfl
  obtain ⟨kept, hlisted, hkept⟩ :=
    hlist "containers" "containers" [.null] replacingContainers (.inl rfl)
  have hrun : listedBy "containers" "containers" [.null] replacingContainers
      = .ok [.obj [], .obj [("name", .str "log")]] := rfl
  obtain rfl := Except.ok.inj (hrun.symm.trans hlisted)
  refine ⟨Bool.eq_false_iff.mpr fun h => ?_, ?_, hrun, hkept.clean⟩
  · exact absurd ((hsame (by decide)).mp h) (by decide)
  · rw [hmerged, Json.obj.inj (hfs.exact_iff.mpr (by decide))]

end Patch
end Rollout
