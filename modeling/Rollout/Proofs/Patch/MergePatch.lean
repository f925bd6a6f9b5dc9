import Rollout.Proofs.Patch.Plain

/-!
# A strategic merge without strategy is a merge patch

A JSON merge patch has no directives and no keys: null erases a field, an object is merged
into the object that is there, and everything else overwrites (`Patch.mergePatched`). It never
fails, since an object that meets something else takes its place.

A strategic merge of a patch that gives no directives and whose lists overwrite
(`Patch.isOverlay`) does the same but for one thing. It refuses to put a map, a list or a scalar
in the place of a value of another shape. These clashes can be told from the two documents
alone (`Patch.Clash`), and they are all that is refused: wherever there is none the merge is the
merge patch, field by field and in the same order (`Patch.merge_patch_unless_clash`).

The clashes of a map are those of its fields, because a field of the patch never changes what
the fields behind it meet. That takes names that are distinct in the patch; the object may be
anything.
-/

namespace Rollout

namespace Json

/-- What stands at a path of names, from object to object. -/
def at? : Json → List Text → Option Json
  | j, [] => some j
  | .obj fs, k :: path => (Fields.get? fs k).bind fun v => v.at? path
  | _, _ :: _ => none

/-- What a merge tells values by. -/
inductive Shape where
  | map
  | list
  | scalar
deriving DecidableEq, Repr

/-- The shape of a value. -/
def shape : Json → Shape
  | .obj _ => .map
  | .arr _ => .list
  | _ => .scalar

mutual

/-- **The test succeeds on every object that is reached through objects.** -/
def inMaps (p : Fields Json → Bool) : Json → Bool
  | .obj fs => p fs && inMapFields p fs
  | _ => true

/-- The test succeeds on every object that is reached through the values of an object. -/
def inMapFields (p : Fields Json → Bool) : List (Text × Json) → Bool
  | [] => true
  | (_, v) :: fs => inMaps p v && inMapFields p fs

end

theorem inMapFields_iff {p : Fields Json → Bool} {fs : List (Text × Json)} :
    inMapFields p fs = true ↔ ∀ f ∈ fs, inMaps p f.2 = true := by
  induction fs with
  | nil => simp [inMapFields]
  | cons f fs ih =>
    obtain ⟨k, v⟩ := f
    rw [inMapFields, Bool.and_eq_true, ih, List.forall_mem_cons]

@[simp] theorem inMaps_obj_iff {p : Fields Json → Bool} {fs : Fields Json} :
    inMaps p (.obj fs) = true ↔ p fs = true ∧ ∀ f ∈ fs, inMaps p f.2 = true := by
  rw [inMaps, Bool.and_eq_true, inMapFields_iff]

end Json

namespace Patch

open Json (everywhere isPlainPart isPlainPart_obj_iff everywhere_obj_iff inMaps inMaps_obj_iff)

/-! ## Merge patches -/

/-- The map that stands at a field. What is none counts as empty. -/
def mapIn : Option Json → Fields Json
  | some (.obj fs) => fs
  | _ => []

mutual

/-- **A merge patch applied to what stands at its place.** -/
def mergePatched (target : Option Json) : Json → Json
  | .obj patch => .obj (mergePatchedFields (mapIn target) patch)
  | v => v

/-- The fields of a merge patch applied to a map, one after the other. -/
def mergePatchedFields : Fields Json → List (Text × Json) → Fields Json
  | target, [] => target
  | target, (k, .null) :: rest => mergePatchedFields (Fields.erase target k) rest
  | target, (k, v) :: rest =>
    mergePatchedFields (Fields.set target k (mergePatched (Fields.get? target k) v)) rest

end

/-- What a field holds under a merge patch. -/
def patchedAt (current : Option Json) : Json → Option Json
  | .null => none
  | v => some (mergePatched current v)

theorem mergePatchedFields_cons (target : Fields Json) (k : Text) (v : Json)
    (rest : List (Text × Json)) :
    mergePatchedFields target ((k, v) :: rest)
      = mergePatchedFields (Fields.put target k (patchedAt (Fields.get? target k) v)) rest := by
  cases v <;> rfl

/-! ## Clashes -/

/-- **Two documents clash** if there is a path through objects at which both have a value, and
not of the same shape. Null is no value. -/
def Clash (base patch : Json) : Prop :=
  ∃ path v w, patch.at? path = some v ∧ base.at? path = some w
    ∧ v ≠ .null ∧ w ≠ .null ∧ v.shape ≠ w.shape

theorem clash_of_shape {base patch : Json} (hpatch : patch ≠ .null) (hbase : base ≠ .null)
    (h : patch.shape ≠ base.shape) : Clash base patch :=
  ⟨[], patch, base, rfl, rfl, hpatch, hbase, h⟩

/-- Objects clash where their fields do. -/
theorem clash_obj_iff {base patch : Fields Json} :
    Clash (.obj base) (.obj patch)
      ↔ ∃ k v w, Fields.get? patch k = some v ∧ Fields.get? base k = some w ∧ Clash w v := by
  constructor
  · rintro ⟨path, v, w, hv, hw, hne⟩
    cases path with
    | nil =>
      cases hv
      cases hw
      exact absurd rfl hne.2.2
    | cons k path =>
      obtain ⟨v', hv', hv⟩ := Option.bind_eq_some_iff.mp hv
      obtain ⟨w', hw', hw⟩ := Option.bind_eq_some_iff.mp hw
      exact ⟨k, v', w', hv', hw', path, v, w, hv, hw, hne⟩
  · rintro ⟨k, v', w', hv', hw', path, v, w, hv, hw, hne⟩
    exact ⟨k :: path, v, w, Option.bind_eq_some_iff.mpr ⟨v', hv', hv⟩,
      Option.bind_eq_some_iff.mpr ⟨w', hw', hw⟩, hne⟩

/-- What is no object clashes as a whole or not at all. -/
theorem clash_iff_of_shape_ne_map {base patch : Json} (h : patch.shape ≠ .map) :
    Clash base patch ↔ patch ≠ .null ∧ base ≠ .null ∧ patch.shape ≠ base.shape := by
  refine ⟨?_, fun ⟨hpatch, hbase, hne⟩ => clash_of_shape hpatch hbase hne⟩
  rintro ⟨path, v, w, hv, hw, hne⟩
  cases path with
  | nil =>
    cases hv
    cases hw
    exact hne
  | cons k path =>
    cases patch with
    | obj fs => exact absurd rfl h
    | _ => cases hv

/-- Nothing clashes with no fields. -/
theorem not_clash_nil (patch : Fields Json) : ¬Clash (.obj []) (.obj patch) := by
  rw [clash_obj_iff]
  rintro ⟨k, v, w, -, hw, -⟩
  cases hw

/-- An object clashes with every other value but null, and with an object in its fields. -/
theorem clash_patch_obj_iff {base : Json} {patch : Fields Json} :
    Clash base (.obj patch) ↔ (base ≠ .null ∧ Json.Shape.map ≠ base.shape)
      ∨ Clash (.obj (mapIn (some base))) (.obj patch) := by
  cases base with
  | obj fs => exact (or_iff_right fun h => h.2 rfl).symm
  | null =>
    refine iff_of_false ?_ (not_or_intro (fun h => h.1 rfl) (not_clash_nil patch))
    rintro ⟨path, v, w, -, hw, -, hne, -⟩
    cases path with
    | nil => exact hne (Option.some.inj hw).symm
    | cons k path => cases hw
  | _ => exact iff_of_true (clash_of_shape nofun nofun nofun) (.inl ⟨nofun, nofun⟩)

/-! ## Computations that give a result unless something clashes -/

/-- **The computation gives this result, and is refused in this case only.** -/
def GivesUnless {α : Type} (clash : Prop) (a : α) (x : Outcome α) : Prop :=
  (clash → ∃ e, x = refuse e) ∧ (¬clash → x = .ok a)

section GivesUnless

variable {α β : Type} {c d : Prop} {a : α} {b : β} {x : Outcome α}

theorem givesUnless_ok (h : ¬c) (a : α) : GivesUnless c a (.ok a) :=
  ⟨fun hc => absurd hc h, fun _ => rfl⟩

theorem givesUnless_refuse (h : c) (a : α) (e : PatchError) : GivesUnless c a (refuse e) :=
  ⟨fun _ => ⟨e, rfl⟩, fun hc => absurd h hc⟩

theorem GivesUnless.congr (h : GivesUnless c a x) (hcd : c ↔ d) : GivesUnless d a x :=
  ⟨fun hd => h.1 (hcd.mpr hd), fun hd => h.2 fun hc => hd (hcd.mp hc)⟩

/-- Two steps are refused where one of them is. -/
theorem GivesUnless.bind (h : GivesUnless c a x) {f : α → Outcome β}
    (hf : GivesUnless d b (f a)) : GivesUnless (c ∨ d) b (x >>= f) := by
  by_cases hc : c
  · obtain ⟨e, rfl⟩ := h.1 hc
    exact givesUnless_refuse (.inl hc) b e
  · rw [h.2 hc]
    exact hf.congr (or_iff_right hc).symm

/-- A step that cannot be refused. -/
theorem GivesUnless.andThen (h : GivesUnless c a x) (f : α → β) :
    GivesUnless c (f a) (x >>= fun a => pure (f a)) :=
  (h.bind (givesUnless_ok not_false (f a))).congr (or_iff_left not_false)

/-- It is refused in that case and in no other. -/
theorem GivesUnless.refused_iff (h : GivesUnless c a x) : c ↔ ∃ e, x = refuse e := by
  refine ⟨h.1, fun ⟨e, he⟩ => ?_⟩
  by_contra hc
  rw [h.2 hc] at he
  cases he

end GivesUnless

/-! ## What stands at a field -/

/-- Where a value of this shape is put, something of another shape stands. -/
def Obstructs (s : Json.Shape) (current : Option Json) : Prop :=
  ∃ w, current = some w ∧ w ≠ .null ∧ s ≠ w.shape

theorem not_obstructs_none (s : Json.Shape) : ¬Obstructs s none := by
  rintro ⟨w, hw, -⟩
  cases hw

theorem obstructs_some_iff {s : Json.Shape} {w : Json} :
    Obstructs s (some w) ↔ w ≠ .null ∧ s ≠ w.shape := by
  constructor
  · rintro ⟨w', hw, h⟩
    cases hw
    exact h
  · exact fun h => ⟨w, rfl, h⟩

/-- The list that stands at a field. What is none counts as empty. -/
def listIn : Option Json → List Json
  | some (.arr items) => items
  | _ => []

theorem mapAt_givesUnless (path : Text) (current : Option Json) :
    GivesUnless (Obstructs .map current) (mapIn current) (mapAt path current) := by
  rcases current with - | w
  · exact givesUnless_ok (not_obstructs_none _) _
  · cases w with
    | null => exact givesUnless_ok (fun h => (obstructs_some_iff.mp h).1 rfl) _
    | obj fs => exact givesUnless_ok (fun h => (obstructs_some_iff.mp h).2 rfl) _
    | _ =>
      refine givesUnless_refuse ?_ _ _
      exact ⟨_, rfl, nofun, nofun⟩

theorem listAt_givesUnless (path : Text) (current : Option Json) :
    GivesUnless (Obstructs .list current) (listIn current) (listAt path current) := by
  rcases current with - | w
  · exact givesUnless_ok (not_obstructs_none _) _
  · cases w with
    | null => exact givesUnless_ok (fun h => (obstructs_some_iff.mp h).1 rfl) _
    | arr items => exact givesUnless_ok (fun h => (obstructs_some_iff.mp h).2 rfl) _
    | _ =>
      refine givesUnless_refuse ?_ _ _
      exact ⟨_, rfl, nofun, nofun⟩

theorem scalarAt_givesUnless (path : Text) (current : Option Json) :
    GivesUnless (Obstructs .scalar current) () (scalarAt path current) := by
  rcases current with - | w
  · exact givesUnless_ok (not_obstructs_none _) _
  · cases w with
    | null => exact givesUnless_ok (fun h => (obstructs_some_iff.mp h).1 rfl) _
    | arr items =>
      refine givesUnless_refuse ?_ _ _
      exact ⟨_, rfl, nofun, nofun⟩
    | obj fs =>
      refine givesUnless_refuse ?_ _ _
      exact ⟨_, rfl, nofun, nofun⟩
    | _ => exact givesUnless_ok (fun h => (obstructs_some_iff.mp h).2 rfl) _

/-! ## Values -/

/-- What stands at a field clashes with a value that is put there. -/
def ClashAt (current : Option Json) (v : Json) : Prop :=
  ∃ w, current = some w ∧ Clash w v

/-- A value of the patch is merged as a merge patch puts it, unless it clashes. -/
def MergesAsPatch (field : Text) (v : Json) : Prop :=
  ∀ path current,
    GivesUnless (ClashAt current v) (patchedAt current v) (mergedValue path field current v)

theorem clashAt_iff_obstructs {current : Option Json} {v : Json} (hne : v ≠ .null)
    (hv : v.shape ≠ .map) : ClashAt current v ↔ Obstructs v.shape current := by
  constructor
  · rintro ⟨w, hw, h⟩
    exact ⟨w, hw, ((clash_iff_of_shape_ne_map hv).mp h).2⟩
  · rintro ⟨w, hw, h⟩
    exact ⟨w, hw, (clash_iff_of_shape_ne_map hv).mpr ⟨hne, h⟩⟩

theorem mergesAsPatch_null (field : Text) : MergesAsPatch field .null := by
  intro path current
  have hshape : Json.null.shape ≠ .map := nofun
  refine givesUnless_ok ?_ _
  rintro ⟨w, -, h⟩
  exact ((clash_iff_of_shape_ne_map hshape).mp h).1 rfl

/-- A scalar overwrites what is no map and no list. -/
theorem mergesAsPatch_scalar {field : Text} {v : Json} (hne : v ≠ .null)
    (hv : v.shape = .scalar) : MergesAsPatch field v := by
  intro path current
  have hclash : Obstructs .scalar current ↔ ClashAt current v :=
    (hv ▸ clashAt_iff_obstructs hne (by rw [hv]; nofun)).symm
  have hput := (scalarAt_givesUnless path current).andThen fun _ => some v
  cases v with
  | null => exact absurd rfl hne
  | arr items => cases hv
  | obj fs => cases hv
  | _ => exact hput.congr hclash

/-- A list under this field overwrites. -/
def isOverwriting (f : Text × Json) : Bool :=
  match f.2 with
  | .arr _ => (mergeKey? f.1).isNone && !isUnited f.1
  | _ => true

/-- **A map that is merged without strategy**: its names are distinct and its lists
overwrite. -/
def isOverlay (fs : Fields Json) : Bool :=
  decide (Fields.names fs).Nodup && fs.all isOverwriting

theorem isOverlay_iff {fs : Fields Json} :
    isOverlay fs = true ↔ Fields.Distinct fs ∧ ∀ f ∈ fs, isOverwriting f = true := by
  rw [isOverlay, Bool.and_eq_true, decide_eq_true_eq, List.all_eq_true]
  exact Iff.rfl

/-- A list without a key and without directives is put in the place of another. -/
theorem listed_of_isOverwriting {field : Text} {items : List Json}
    (hplain : everywhere isPlainPart (.arr items) = true)
    (hfield : isOverwriting (field, .arr items) = true) (path : Text) (base : List Json)
    (merge : Text → List Json → Outcome (List Json)) :
    listed path field base items merge = .ok items := by
  obtain ⟨hkey, hunited⟩ := Bool.and_eq_true_iff.mp hfield
  have hstripped : Json.strippedItems items = items :=
    Json.arr.inj (Json.stripped_of_plain hplain)
  have hnot : ¬isUnited field = true := by simpa using hunited
  unfold listed
  rw [hstripped, Option.isNone_iff_eq_none.mp hkey, if_neg hnot]
  exact ite_self _

/-- A list overwrites what is a list. -/
theorem mergesAsPatch_arr {field : Text} {items : List Json}
    (hplain : everywhere isPlainPart (.arr items) = true)
    (hfield : isOverwriting (field, .arr items) = true) : MergesAsPatch field (.arr items) := by
  intro path current
  rw [mergedValue]
  have hlisted := listed_of_isOverwriting hplain hfield path (listIn current)
    fun key base => mergedElements path key base items
  have hne : Json.arr items ≠ .null := by rintro ⟨⟩
  have hshape : (Json.arr items).shape ≠ .map := by rintro ⟨⟩
  refine ((listAt_givesUnless path current).bind (d := False) ?_).congr
    ((or_iff_left not_false).trans (clashAt_iff_obstructs hne hshape).symm)
  rw [hlisted]
  exact givesUnless_ok not_false _

theorem mergedFields_cons {path : Text} {result : Fields Json} {k : Text} {v : Json}
    {rest : List (Text × Json)} (hk : isDirective k = false) :
    mergedFields path result ((k, v) :: rest) = (do
      let held ← mergedValue (fieldPath path k) k (Fields.get? result k) v
      mergedFields path (Fields.put result k held) rest) := by
  rw [mergedFields, if_neg (by rw [hk]; exact Bool.false_ne_true)]
  refine bind_congr fun held => ?_
  cases held <;> rfl

/-- **The fields of a patch are merged as a merge patch puts them, unless one clashes.** -/
theorem mergedFields_givesUnless {fs : Fields Json} (hd : Fields.Distinct fs)
    (hplain : ∀ f ∈ fs, isDirective f.1 = false) (hfs : ∀ f ∈ fs, MergesAsPatch f.1 f.2)
    (path : Text) (result : Fields Json) :
    GivesUnless (∃ k v, Fields.get? fs k = some v ∧ ClashAt (Fields.get? result k) v)
      (mergePatchedFields result fs) (mergedFields path result fs) := by
  induction fs generalizing result with
  | nil =>
    refine givesUnless_ok ?_ _
    rintro ⟨k, v, hv, -⟩
    cases hv
  | cons f fs ih =>
    obtain ⟨k, v⟩ := f
    obtain ⟨hk, hd⟩ := Fields.distinct_cons_iff.mp hd
    obtain ⟨hdata, hplain⟩ := List.forall_mem_cons.mp hplain
    obtain ⟨hv, hfs⟩ := List.forall_mem_cons.mp hfs
    have hfirst := hv (fieldPath path k) (Fields.get? result k)
    have hrest := ih hd hplain hfs (Fields.put result k (patchedAt (Fields.get? result k) v))
    rw [mergedFields_cons hdata, mergePatchedFields_cons]
    refine (hfirst.bind hrest).congr ?_
    -- the fields behind the first have other names, so that they meet what was there before
    have hother : ∀ {k' v'}, Fields.get? fs k' = some v' → k ≠ k' := by
      rintro k' v' hv' rfl
      rw [Fields.get?_eq_none_iff.mpr hk] at hv'
      cases hv'
    constructor
    · rintro (hclash | ⟨k', v', hv', hclash⟩)
      · exact ⟨k, v, by rw [Fields.get?_cons, if_pos rfl], hclash⟩
      · have hne := hother hv'
        rw [Fields.get?_put, if_neg hne] at hclash
        exact ⟨k', v', by rw [Fields.get?_cons, if_neg hne]; exact hv', hclash⟩
    · rintro ⟨k', v', hv', hclash⟩
      rw [Fields.get?_cons] at hv'
      split at hv'
      · rename_i heq
        cases hv'
        exact .inl (heq ▸ hclash)
      · rename_i hne
        exact .inr ⟨k', v', hv', by rw [Fields.get?_put, if_neg hne]; exact hclash⟩

/-- A map under a patch without strategy has the fields of a merge patch put into it. -/
theorem merged_givesUnless {fs : Fields Json} (hd : Fields.Distinct fs)
    (hplain : isPlainPart (.obj fs) = true) (hfs : ∀ f ∈ fs, MergesAsPatch f.1 f.2)
    (path : Text) (base : Fields Json) :
    GivesUnless (Clash (.obj base) (.obj fs)) (some (mergePatchedFields base fs))
      (merged path base fs) := by
  rw [merged_of_isPlainPart path hplain base]
  refine ((mergedFields_givesUnless hd (isPlainPart_obj_iff.mp hplain) hfs path base).andThen
    some).congr ?_
  rw [clash_obj_iff]
  constructor
  · rintro ⟨k, v, hv, w, hw, hclash⟩
    exact ⟨k, v, w, hv, hw, hclash⟩
  · rintro ⟨k, v, w, hv, hw, hclash⟩
    exact ⟨k, v, hv, w, hw, hclash⟩

/-- A map is merged into what is a map or is not there. -/
theorem mergesAsPatch_obj {field : Text} {fs : Fields Json} (hd : Fields.Distinct fs)
    (hplain : isPlainPart (.obj fs) = true) (hfs : ∀ f ∈ fs, MergesAsPatch f.1 f.2) :
    MergesAsPatch field (.obj fs) := by
  intro path current
  rw [mergedValue]
  have hmerged := merged_givesUnless hd hplain hfs path (mapIn current)
  refine ((mapAt_givesUnless path current).bind (hmerged.andThen (Option.map Json.obj))).congr ?_
  cases current with
  | none =>
    refine iff_of_false (not_or_intro (not_obstructs_none _) (not_clash_nil fs)) ?_
    rintro ⟨w, hw, -⟩
    cases hw
  | some w =>
    rw [obstructs_some_iff, ← clash_patch_obj_iff]
    constructor
    · exact fun h => ⟨w, rfl, h⟩
    · rintro ⟨w', hw, h⟩
      cases hw
      exact h

/-- **A value of a patch without directives and keys is merged as a merge patch puts it**,
unless it clashes. -/
theorem mergesAsPatch {v : Json} (hplain : everywhere isPlainPart v = true)
    (hmaps : inMaps isOverlay v = true) {field : Text} (hfield : isOverwriting (field, v) = true) :
    MergesAsPatch field v := by
  induction v using Json.induction generalizing field with
  | null => exact mergesAsPatch_null field
  | arr items => exact mergesAsPatch_arr hplain hfield
  | obj fs ih =>
    obtain ⟨hpart, hplain⟩ := everywhere_obj_iff.mp hplain
    obtain ⟨hmap, hmaps⟩ := inMaps_obj_iff.mp hmaps
    obtain ⟨hd, hlists⟩ := isOverlay_iff.mp hmap
    exact mergesAsPatch_obj hd hpart fun f hf => ih f hf (hplain f hf) (hmaps f hf) (hlists f hf)
  | _ => exact mergesAsPatch_scalar nofun rfl

/-- **Without directives and keys a merge is a merge patch, unless something clashes.** -/
theorem merge_patch_unless_clash {base patch : Fields Json}
    (hplain : everywhere isPlainPart (.obj patch) = true)
    (hmaps : inMaps isOverlay (.obj patch) = true) :
    (Clash (.obj base) (.obj patch) ↔ ∃ e, mergedObject base patch = refuse e)
      ∧ (¬Clash (.obj base) (.obj patch) →
        mergedObject base patch = .ok (mergePatchedFields base patch)) := by
  obtain ⟨hpart, hvalues⟩ := everywhere_obj_iff.mp hplain
  obtain ⟨hmap, hmaps⟩ := inMaps_obj_iff.mp hmaps
  obtain ⟨hd, hlists⟩ := isOverlay_iff.mp hmap
  have hfs : ∀ f ∈ patch, MergesAsPatch f.1 f.2 := fun f hf =>
    mergesAsPatch (hvalues f hf) (hmaps f hf) (hlists f hf)
  have hmerged := (merged_givesUnless hd hpart hfs "" base).andThen fun merged => merged.getD []
  exact ⟨hmerged.refused_iff, hmerged.2⟩

/-- A patch that erases fields of maps that are there and of maps that are not. -/
def erasingPatch : Fields Json := [
  ("metadata", .obj [
    ("labels", .obj [("app", .null), ("tier", .obj [("a", .null), ("b", .int 1)])])]),
  ("spec", .obj [("args", .arr [.str "x", .obj [("c", .null)]]), ("new", .obj [("gone", .null)])])]

/-- An object with a null where the patch has a map. -/
def erasedBase : Fields Json := [
  ("metadata", .obj [
    ("labels", .obj [("app", .str "web"), ("tier", .null)]), ("name", .str "web")]),
  ("spec", .obj [("replicas", .int 2), ("args", .arr [.str "y", .str "z"])])]

/-- An object with a map where the patch has a list. -/
def clashingBase : Fields Json := [("spec", .obj [("args", .obj [("y", .int 1)])])]

/-- **Fields are erased and lists overwritten**, and a list does not take the place of a map. -/
theorem merge_patch_unless_clash_erasingPatch :
    mergedObject erasedBase erasingPatch = .ok [
        ("metadata", .obj [
          ("labels", .obj [("tier", .obj [("b", .int 1)])]), ("name", .str "web")]),
        ("spec", .obj [("replicas", .int 2), ("args", .arr [.str "x", .obj [("c", .null)]]),
          ("new", .obj [])])]
      ∧ ∃ e, mergedObject clashingBase erasingPatch = refuse e := by
  have hplain : everywhere isPlainPart (.obj erasingPatch) = true := by decide
  have hmaps : inMaps isOverlay (.obj erasingPatch) = true := by decide
  have hclash : Clash (.obj clashingBase) (.obj erasingPatch) :=
    ⟨["spec", "args"], _, _, rfl, rfl, nofun, nofun, nofun⟩
  refine ⟨?_, (merge_patch_unless_clash hplain hmaps).1.mp hclash⟩
  refine ((merge_patch_unless_clash hplain hmaps).2 fun h => ?_).trans rfl
  obtain ⟨e, he⟩ := (merge_patch_unless_clash hplain hmaps).1.mp h
  cases he

end Patch
end Rollout
