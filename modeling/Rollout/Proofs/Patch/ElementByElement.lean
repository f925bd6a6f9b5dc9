import Rollout.Proofs.Patch.Idempotence

/-!
# A keyed list element by element

What a patch makes of a list whose elements are told apart by a merge key. An element
that the patch does not name stays as it is. One that it names is gone if the patch's
element deletes, and otherwise is what that element made of it, at its place
(`Patch.Becomes`). What the patch names and the list lacks stands behind all others, in
the order of the patch (`Patch.newcomers`, `Patch.IsAdded`). Afterwards again no two
elements share a merge-key value (`Patch.listed_element_by_element`).

The merge builds this list while it goes through the patch, and each step searches what
the steps before it left, where places have moved and elements were put behind. The
statement knows nothing of that: it goes through the original list once. What joins the
two is that a step decides the fate of one element and leaves all others to the rest of
the patch.
-/

namespace Rollout
namespace Patch

open Json (WellFormed)

/-! ## Names on both sides -/

variable {path key place : Text} {w : Json} {element : Fields Json}
  {items items' rest : List Json}

/-- An element of the list shares its merge-key value with an element of the patch if it
has that element's name. -/
theorem IsElement.shareKey_eq (he : IsElement key w element) (x : Json) :
    shareKey key x (.obj element) = isNamed key w x := by
  refine Bool.eq_iff_iff.mpr (shareKey_iff.trans ⟨?_, fun h => ?_⟩)
  · rintro ⟨v, w', hv, hw', hvw⟩
    cases he.key.symm.trans hw'
    cases x with
    | obj fs =>
      rw [isNamed, Fields.getD, show Fields.get? fs key = some v from hv]
      exact hvw
    | _ => cases hv
  · obtain ⟨fs, v, rfl, hv, hvw⟩ := exists_of_isNamed he.name h
    exact ⟨v, w, hv, he.key, hvw⟩

/-- Well-formed elements share a merge-key value with each other. -/
theorem shareKey_symm {x y : Json} (hx : WellFormed x) (hy : WellFormed y)
    (h : shareKey key x y = true) : shareKey key y x = true := by
  obtain ⟨v, u, hv, hu, hvu⟩ := shareKey_iff.mp h
  exact shareKey_iff.mpr ⟨u, v, hu, hv,
    Json.eqv_symm (wellFormed_of_keyOf? hx hv) (wellFormed_of_keyOf? hy hu) hvu⟩

/-- **The elements of a list hold merge-key values**, and no two the same. -/
structure IsKeyed (key : Text) (items : List Json) : Prop where
  wellFormed : ∀ x ∈ items, WellFormed x
  present : ∀ x ∈ items, (keyOf? key x).isSome = true
  differ : keysDiffer key items = true

/-! ## One element of the patch -/

/-- A map that its patch does not delete is there afterwards. -/
theorem exists_of_merged {base patch : Fields Json} {result? : Option (Fields Json)}
    (hd : hasMode "delete" (.obj patch) = false) (h : merged place base patch = .ok result?) :
    ∃ result, result? = some result := by
  obtain ⟨m, hm, -⟩ := Outcome.bind_eq_ok_iff.mp h
  cases m with
  | replace => exact ⟨_, (Except.ok.inj ((merged_of_replace hm base).symm.trans h)).symm⟩
  | merge =>
    obtain ⟨names?, ds, hnames, hds⟩ := exists_directives_of_merged hm h
    rw [merged_eq_phases hm hnames hds] at h
    obtain ⟨_, -, h⟩ := Outcome.bind_eq_ok_iff.mp h
    obtain ⟨_, -, h⟩ := Outcome.bind_eq_ok_iff.mp h
    obtain ⟨result, -, h⟩ := Outcome.bind_eq_ok_iff.mp h
    exact ⟨result, (Except.ok.inj h).symm⟩
  | delete =>
    rcases mode_eq_ok hm with hm | ⟨hm, -⟩ | ⟨-, hdelete⟩
    · cases hm
    · cases hm
    · exact absurd hdelete (Bool.eq_false_iff.mp hd)

/-- **What an element of the patch leaves** in the place of the one with its name:
nothing if it deletes, and otherwise the map that it was merged into. -/
theorem replaced_eq_ok {found? left? : Option (Fields Json)}
    (h : replaced path key w element found? = .ok left?) :
    (hasMode "delete" (.obj element) = true ∧ left? = none)
      ∨ (hasMode "delete" (.obj element) = false ∧ ∃ fs, left? = some fs
        ∧ merged (elementPath path key w) (found?.getD []) element = .ok (some fs)) := by
  unfold replaced replacement at h
  cases hd : hasMode "delete" (.obj element) with
  | true =>
    rw [hd, if_pos rfl] at h
    exact .inl ⟨rfl, (Except.ok.inj h).symm⟩
  | false =>
    rw [hd, if_neg Bool.false_ne_true] at h
    obtain ⟨fs, rfl⟩ := exists_of_merged hd h
    exact .inr ⟨rfl, fs, rfl, h⟩

/-- **One step of a merge**: the element with the name, if there is one, is cut out and
something else, or nothing, stands in its place. No other element has the name. -/
structure IsStep (path key : Text) (w : Json) (element : Fields Json) (items items' : List Json)
    (pre : List Json) (found? left? : Option (Fields Json)) (post : List Json) : Prop where
  cut : IsCut key w items pre found? post
  replaced : replaced path key w element found? = .ok left?
  parts : items' = pre ++ (left?.map Json.obj).toList ++ post
  around : ∀ x ∈ pre ++ post, isNamed key w x = false
  left : ∀ fs, left? = some fs → Fields.get? fs key = some w

theorem exists_isStep (he : IsElement key w element) (hkey : isDirective key = false)
    (hitems : IsKeyed key items)
    (h : intoList path key items element (fun place base => merged place base element)
      = .ok items') :
    ∃ pre found? left? post, IsStep path key w element items items' pre found? left? post := by
  obtain ⟨pre, found?, post, hcut⟩ := exists_isCut key w items
  rw [intoList_of_isCut he.key hcut] at h
  obtain ⟨left?, hleft, h⟩ := Outcome.bind_eq_ok_iff.mp h
  have hone := length_named_le_one he.name hitems.wellFormed hitems.differ
  refine ⟨pre, found?, left?, post, hcut, hleft, (Except.ok.inj h).symm, fun x hx => ?_, ?_⟩
  · rcases List.mem_append.mp hx with hx | hx
    · exact hcut.before x hx
    · exact Bool.eq_false_iff.mpr (List.filter_eq_nil_iff.mp (hcut.named_eq hone).2.2 x hx)
  · rintro fs rfl
    exact get?_of_replacement (fun _ _ => he.get?_of_merged hkey) hleft

variable {pre post : List Json} {found? left? : Option (Fields Json)}

/-- What was not cut out is there afterwards. -/
theorem IsStep.mem_around (h : IsStep path key w element items items' pre found? left? post)
    {x : Json} (hx : x ∈ items) (hn : isNamed key w x = false) : x ∈ pre ++ post := by
  rw [h.cut.parts] at hx
  rcases List.mem_append.mp hx with hx | hx
  · rcases List.mem_append.mp hx with hx | hx
    · exact List.mem_append_left _ hx
    · obtain ⟨fs, hfs, rfl⟩ := exists_of_mem_toList hx
      exact absurd (h.cut.found fs hfs) (Bool.eq_false_iff.mp hn)
  · exact List.mem_append_right _ hx

theorem IsStep.mem_after (h : IsStep path key w element items items' pre found? left? post)
    {x : Json} (hx : x ∈ pre ++ post) : x ∈ items' := by
  rw [h.parts]
  rcases List.mem_append.mp hx with hx | hx
  · exact List.mem_append_left _ (List.mem_append_left _ hx)
  · exact List.mem_append_right _ hx

/-- The middle of a list may be replaced by what is related to both sides. -/
theorem pairwise_replace_middle {R : Json → Json → Prop} {pre mid mid' post : List Json}
    (h : (pre ++ mid ++ post).Pairwise R) (hmid : mid'.Pairwise R)
    (hpre : ∀ x ∈ pre, ∀ y ∈ mid', R x y) (hpost : ∀ x ∈ mid', ∀ y ∈ post, R x y) :
    (pre ++ mid' ++ post).Pairwise R := by
  rw [List.append_assoc, List.pairwise_append] at h ⊢
  obtain ⟨hfront, hback, hcross⟩ := h
  refine ⟨hfront, List.pairwise_append.mpr ⟨hmid, (List.pairwise_append.mp hback).2.1, hpost⟩, ?_⟩
  intro x hx y hy
  rcases List.mem_append.mp hy with hy | hy
  · exact hpre x hx y hy
  · exact hcross x hx y (List.mem_append_right _ hy)

/-- **A step keeps the merge-key values apart.** -/
theorem IsStep.isKeyed (h : IsStep path key w element items items' pre found? left? post)
    (he : IsElement key w element) (hitems : IsKeyed key items)
    (hafter : ∀ x ∈ items', WellFormed x) : IsKeyed key items' := by
  have hleft : ∀ x ∈ (left?.map Json.obj).toList, keyOf? key x = some w := by
    intro x hx
    obtain ⟨fs, hfs, rfl⟩ := exists_of_mem_toList hx
    exact h.left fs hfs
  -- what is left has the step's name, and nothing around it has
  have hnone : ∀ x ∈ pre ++ post, ∀ y ∈ (left?.map Json.obj).toList,
      shareKey key x y = false := by
    intro x hx y hy
    have hshare : shareKey key x y = shareKey key x (.obj element) := by
      unfold shareKey
      rw [hleft y hy, show keyOf? key (.obj element) = some w from he.key]
    rw [hshare, he.shareKey_eq, h.around x hx]
  have hbefore := hitems.present
  have hdiffer := of_decide_eq_true hitems.differ
  rw [h.cut.parts] at hbefore hdiffer
  refine ⟨hafter, fun x hx => ?_, decide_eq_true ?_⟩
  · rw [h.parts, List.append_assoc] at hx
    rcases List.mem_append.mp hx with hx | hx
    · exact hbefore x (List.mem_append_left _ (List.mem_append_left _ hx))
    · rcases List.mem_append.mp hx with hx | hx
      · rw [hleft x hx]
        rfl
      · exact hbefore x (List.mem_append_right _ hx)
  · rw [h.parts] at hafter ⊢
    refine pairwise_replace_middle hdiffer ?_
      (fun x hx => hnone x (List.mem_append_left _ hx)) fun x hx y hy => ?_
    · cases left? with
      | none => exact List.Pairwise.nil
      | some fs => exact List.pairwise_singleton _ _
    · have hxw := hafter x (List.mem_append_left _ (List.mem_append_right _ hx))
      have hyw := hafter y (List.mem_append_right _ hy)
      refine Bool.eq_false_iff.mpr fun hshare => ?_
      exact Bool.eq_false_iff.mp (hnone y (List.mem_append_right _ hy) x hx)
        (shareKey_symm hxw hyw hshare)

/-! ## The fate of an element -/

/-- **What becomes of an element of the list**: it stays as it is if the patch does not
name it, is gone if the patch deletes it, and is otherwise what the patch's element makes
of it. -/
inductive Becomes (path key : Text) (patch : List Json) (x : Json) : Option Json → Prop
  | unnamed (h : ∀ e ∈ patch, shareKey key x e = false) : Becomes path key patch x (some x)
  | deleted {e : Json} (he : e ∈ patch) (hx : shareKey key x e = true)
      (hd : hasMode "delete" e = true) : Becomes path key patch x none
  | updated {fs element gs : Fields Json} {w : Json} (hobject : x = .obj fs)
      (he : .obj element ∈ patch) (hx : shareKey key x (.obj element) = true)
      (hd : hasMode "delete" (.obj element) = false) (hw : Fields.get? element key = some w)
      (hm : merged (elementPath path key w) fs element = .ok (some gs)) :
      Becomes path key patch x (some (.obj gs))

/-- An element of the patch with another name has no part in it. -/
theorem Becomes.cons {x e : Json} {after? : Option Json} (h : Becomes path key rest x after?)
    (he : shareKey key x e = false) : Becomes path key (e :: rest) x after? := by
  cases h with
  | unnamed h => exact .unnamed (List.forall_mem_cons.mpr ⟨he, h⟩)
  | deleted he' hx hd => exact .deleted (List.mem_cons_of_mem _ he') hx hd
  | updated hobject he' hx hd hw hm =>
    exact .updated hobject (List.mem_cons_of_mem _ he') hx hd hw hm

/-- What the patch does not name stays as it is. -/
theorem Becomes.eq_some {x : Json} {after? : Option Json} (h : Becomes path key rest x after?)
    (hx : ∀ e ∈ rest, shareKey key x e = false) : after? = some x := by
  cases h with
  | unnamed => rfl
  | deleted he hshare => exact absurd hshare (Bool.eq_false_iff.mp (hx _ he))
  | updated _ he hshare => exact absurd hshare (Bool.eq_false_iff.mp (hx _ he))

/-- **The elements of the patch that the list lacks**, and that do not delete. -/
def newcomers (key : Text) (items patch : List Json) : List Json :=
  patch.filter fun e => !hasMode "delete" e && items.all fun x => !shareKey key x e

/-- What stands in the list for an element that it lacked: the element merged into an
empty map. -/
def IsAdded (path key : Text) (e y : Json) : Prop :=
  ∃ element w fs, e = .obj element ∧ Fields.get? element key = some w
    ∧ merged (elementPath path key w) [] element = .ok (some fs) ∧ y = .obj fs

/-- The list lacks the element if none was cut out. -/
theorem IsStep.all_eq_isNone (h : IsStep path key w element items items' pre found? left? post)
    (he : IsElement key w element) :
    items.all (fun x => !shareKey key x (.obj element)) = found?.isNone := by
  simp only [he.shareKey_eq]
  cases found? with
  | some fs =>
    exact List.all_eq_false.mpr ⟨.obj fs, h.cut.mem_of_found, by rw [h.cut.found fs rfl]; decide⟩
  | none =>
    refine List.all_eq_true.mpr fun x hx => ?_
    rw [h.cut.parts, h.cut.behind rfl, List.append_nil] at hx
    rw [h.cut.before x ((List.mem_append.mp hx).resolve_right List.not_mem_nil)]
    rfl

/-- **What the list lacks before a step** is what it lacks afterwards, and the step's own
element if none was cut out for it. -/
theorem IsStep.newcomers_cons (h : IsStep path key w element items items' pre found? left? post)
    (he : IsElement key w element) (hrest : ∀ x, isNamed key w x = true → ∀ e ∈ rest,
      shareKey key x e = false) :
    newcomers key items (.obj element :: rest)
      = (if !hasMode "delete" (.obj element) && found?.isNone then [.obj element] else [])
        ++ newcomers key items' rest := by
  have hfound : ∀ x ∈ (found?.map Json.obj).toList, isNamed key w x = true := by
    intro x hx
    obtain ⟨fs, hfs, rfl⟩ := exists_of_mem_toList hx
    exact h.cut.found fs hfs
  have hleft : ∀ x ∈ (left?.map Json.obj).toList, isNamed key w x = true := by
    intro x hx
    obtain ⟨fs, hfs, rfl⟩ := exists_of_mem_toList hx
    exact isNamed_of_get? he.name (h.left fs hfs)
  -- neither what was cut out nor what is left has a name of the rest
  have hother : newcomers key items rest = newcomers key items' rest := by
    refine List.filter_congr fun e hmem => ?_
    have hall : ∀ {xs : List Json}, (∀ x ∈ xs, isNamed key w x = true) →
        xs.all (fun x => !shareKey key x e) = true := fun hxs =>
      List.all_eq_true.mpr fun x hx => by rw [hrest x (hxs x hx) e hmem]; rfl
    rw [h.cut.parts, h.parts]
    simp only [List.all_append, hall hfound, hall hleft]
  rw [← hother, newcomers, List.filter_cons, h.all_eq_isNone he]
  split <;> rfl

/-- **The step's own element has its fate**: what was left in its place. -/
theorem IsStep.becomes (h : IsStep path key w element items items' pre found? left? post)
    (he : IsElement key w element) {x : Json} (hx : x ∈ items) (hn : isNamed key w x = true) :
    Becomes path key (.obj element :: rest) x (left?.map Json.obj) := by
  have hshare : shareKey key x (.obj element) = true := (he.shareKey_eq x).trans hn
  obtain ⟨fs, rfl, rfl⟩ : ∃ fs, found? = some fs ∧ x = .obj fs := by
    by_contra hfound
    refine Bool.eq_false_iff.mp (h.around x ?_) hn
    rw [h.cut.parts] at hx
    rcases List.mem_append.mp hx with hx | hx
    · refine List.mem_append_left _ ((List.mem_append.mp hx).resolve_right fun hx => ?_)
      exact hfound (exists_of_mem_toList hx)
    · exact List.mem_append_right _ hx
  rcases replaced_eq_ok h.replaced with ⟨hd, rfl⟩ | ⟨hd, gs, rfl, hm⟩
  · exact .deleted List.mem_cons_self hshare hd
  · exact .updated rfl List.mem_cons_self hshare hd he.key hm

/-- **What a step replaces stays at its place, and what it adds goes behind all others**:
the list after it is the list before it, with what is left for the element cut out. -/
theorem IsStep.exists_added (h : IsStep path key w element items items' pre found? left? post)
    (he : IsElement key w element) (hrest : ∀ x, isNamed key w x = true → ∀ e ∈ rest,
      shareKey key x e = false) {fate : Json → Option Json} {added : List Json}
    (hfate : ∀ x ∈ items', Becomes path key rest x (fate x))
    (hadded : List.Forall₂ (IsAdded path key) (newcomers key items' rest) added) :
    ∃ added', List.Forall₂ (IsAdded path key) (newcomers key items (.obj element :: rest)) added'
      ∧ items'.filterMap fate ++ added = items.filterMap
        (fun x => if isNamed key w x then left?.map Json.obj else fate x) ++ added' := by
  have hleft : (left?.map Json.obj).toList.filterMap fate = (left?.map Json.obj).toList := by
    refine (List.filterMap_congr fun x hx => ?_).trans (List.filterMap_some ..)
    obtain ⟨fs, hfs, rfl⟩ := exists_of_mem_toList hx
    refine (hfate _ ?_).eq_some (hrest _ (isNamed_of_get? he.name (h.left fs hfs)))
    rw [h.parts]
    exact List.mem_append_left _ (List.mem_append_right _ hx)
  have haround : ∀ {xs : List Json}, (∀ x ∈ xs, x ∈ pre ++ post) →
      xs.filterMap (fun x => if isNamed key w x then left?.map Json.obj else fate x)
        = xs.filterMap fate := fun hxs =>
    List.filterMap_congr fun x hx => if_neg (Bool.eq_false_iff.mp (h.around x (hxs x hx)))
  have hpre := haround fun x hx => List.mem_append_left post hx
  have hpost := haround fun x hx => List.mem_append_right pre hx
  have hafter : items'.filterMap fate
      = pre.filterMap fate ++ (left?.map Json.obj).toList ++ post.filterMap fate := by
    rw [h.parts, List.filterMap_append, List.filterMap_append, hleft]
  rw [h.newcomers_cons he hrest, hafter, h.cut.parts, List.filterMap_append,
    List.filterMap_append, hpre, hpost]
  cases found? with
  | some fs =>
    -- what is left stands in the place of what was cut out
    refine ⟨added, ?_, ?_⟩
    · rwa [Option.isNone_some, Bool.and_false, if_neg Bool.false_ne_true]
    · rw [Option.map_some, Option.toList_some, List.filterMap_cons]
      simp only [h.cut.found fs rfl, if_true]
      cases left? <;> rfl
  | none =>
    -- nothing was cut out, and what is left goes behind
    obtain rfl := h.cut.behind rfl
    refine ⟨(left?.map Json.obj).toList ++ added, List.rel_append ?_ hadded, by simp⟩
    rcases replaced_eq_ok h.replaced with ⟨hd, rfl⟩ | ⟨hd, gs, rfl, hm⟩
    · rw [hd]
      exact .nil
    · rw [hd]
      exact .cons ⟨element, w, gs, rfl, he.key, hm, rfl⟩ .nil

/-! ## A whole list -/

/-- The rest of the patch has other names than its first element. -/
theorem IsElements.shareKey_eq_false (hp : IsElements key (.obj element :: rest))
    (he : IsElement key w element) {x : Json} (hx : isNamed key w x = true) :
    ∀ e ∈ rest, shareKey key x e = false := by
  intro e hmem
  obtain ⟨w', element', rfl, he'⟩ := hp.each e (List.mem_cons_of_mem _ hmem)
  rw [he'.shareKey_eq]
  exact isNamed_eq_false_of_ne he.name he'.name (hp.ne he hmem he') hx

/-- **Every element has its fate**, through all steps of a merge. -/
theorem exists_fate_of_mergedElements {patch : List Json} (hp : IsElements key patch)
    (hkey : isDirective key = false) (hitems : IsKeyed key items)
    (h : mergedElements path key items patch = .ok items') :
    ∃ (fate : Json → Option Json) (added : List Json),
      (∀ x ∈ items, Becomes path key patch x (fate x))
      ∧ List.Forall₂ (IsAdded path key) (newcomers key items patch) added
      ∧ items' = items.filterMap fate ++ added ∧ IsKeyed key items' := by
  induction patch generalizing items with
  | nil =>
    rw [mergedElements] at h
    cases h
    refine ⟨some, [], fun x _ => .unnamed fun e he => absurd he List.not_mem_nil, .nil, ?_, hitems⟩
    rw [List.filterMap_some, List.append_nil]
  | cons e rest ih =>
    obtain ⟨w, element, rfl, he⟩ := hp.each e List.mem_cons_self
    rw [mergedElements] at h
    obtain ⟨next, hnext, h⟩ := Outcome.bind_eq_ok_iff.mp h
    obtain ⟨pre, found?, left?, post, hstep⟩ := exists_isStep he hkey hitems hnext
    have hwell := wellFormed_of_intoList he.wellFormed hitems.wellFormed hnext
    obtain ⟨fate, added, hfate, hadded, rfl, hkeyed⟩ :=
      ih hp.tail (hstep.isKeyed he hitems hwell) h
    obtain ⟨added', hadded', heq⟩ :=
      hstep.exists_added he (fun _ hx => hp.shareKey_eq_false he hx) hfate hadded
    refine ⟨_, added', fun x hx => ?_, hadded', heq, hkeyed⟩
    show Becomes path key _ x (if isNamed key w x then left?.map Json.obj else fate x)
    cases hn : isNamed key w x with
    | true => exact hstep.becomes he hx hn
    | false =>
      have hmem := hstep.mem_after (hstep.mem_around hx hn)
      exact (hfate x hmem).cons ((he.shareKey_eq x).trans hn)

/-- **A keyed list is merged element by element.** The elements of the list hold
merge-key values that differ, and those of the patch names that differ, and the patch
does not replace the list. Then there is a fate for each element of the list
(`Becomes`), and the result is what they become, in the order they had, with what the
list lacked behind it, in the order of the patch. Its merge-key values differ again. -/
theorem listed_element_by_element {field key path : Text} {base patch result : List Json}
    (hk : mergeKey? field = some key) (hbase : IsKeyed key base)
    (hpatch : ∀ e ∈ patch, WellFormed e)
    (hnames : patch.all (fun e => (keyOf? key e).any isName) = true)
    (hdiffer : keysDiffer key patch = true) (hr : patch.any (hasMode "replace") = false)
    (h : listedBy path field base patch = .ok result) :
    ∃ (fate : Json → Option Json) (added : List Json),
      (∀ x ∈ base, Becomes path key patch x (fate x))
      ∧ List.Forall₂ (IsAdded path key) (newcomers key base patch) added
      ∧ result = base.filterMap fate ++ added ∧ IsKeyed key result := by
  rw [listedBy, listed, if_neg (Bool.eq_false_iff.mp hr), hk] at h
  simp only at h
  split at h
  · exact exists_fate_of_mergedElements (isElements_of_all hpatch hr hnames hdiffer)
      (isDirective_mergeKey hk) hbase h
  · cases h

/-- Ports with numbers that differ, one of which is no name. -/
def fourPorts : List Json :=
  [.obj [("containerPort", .int 80)], .obj [("containerPort", .int 53), ("name", .str "dns")],
   .obj [("containerPort", .int 443), ("name", .str "tls")], .obj [("containerPort", .null)]]

/-- A patch that adds a port, deletes one that is there and one that is not, and changes
one. -/
def portChanges : List Json :=
  [.obj [("containerPort", .int 8080)],
   .obj [("containerPort", .int 53), ("$patch", .str "delete")],
   .obj [("containerPort", .int 22), ("$patch", .str "delete")],
   .obj [("containerPort", .int 443), ("name", .null), ("protocol", .str "TCP")]]

theorem listed_element_by_element_portChanges :
    ∃ result, listedBy "ports" "ports" fourPorts portChanges = .ok result
      ∧ ∃ (fate : Json → Option Json) (added : List Json),
        (∀ x ∈ fourPorts, Becomes "ports" "containerPort" portChanges x (fate x))
        ∧ List.Forall₂ (IsAdded "ports" "containerPort")
          (newcomers "containerPort" fourPorts portChanges) added
        ∧ result = fourPorts.filterMap fate ++ added ∧ IsKeyed "containerPort" result := by
  refine ⟨[.obj [("containerPort", .int 80)],
    .obj [("containerPort", .int 443), ("protocol", .str "TCP")],
    .obj [("containerPort", .null)], .obj [("containerPort", .int 8080)]], by rfl, ?_⟩
  have hkey : mergeKey? "ports" = some "containerPort" := rfl
  exact listed_element_by_element hkey ⟨by decide, by decide, by decide⟩ (by decide)
    (by decide) (by decide) (by decide) (by rfl)

end Patch
end Rollout
