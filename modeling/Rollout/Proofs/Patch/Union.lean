import Mathlib.Data.List.Nodup
import Rollout.Proofs.Patch.Frame

/-!
# Texts that are united

A list of united values gains the values of the patch that it lacks, and a removal in the same
map then takes values out of what came of that. The two go over different lists: what is gained
is looked for in the list as it was before the patch, what is taken out in the list as it is
afterwards. Of texts the result is `olds` and then `news`, less what is taken out, in this order
and whether or not the rest of the patch does anything (`Patch.texts_are_united_in_order`).

It is not always a set. A text that the patch lists twice is looked for in the old list both
times and gained both times (`Patch.exists_text_gained_twice`). Only what was there before is
not doubled, so that the texts of the result are distinct just if those that are gained are.
-/

namespace Rollout
namespace Patch

variable {path k : Text} {base patch : Fields Json} {olds news gone : List Text}

/-- A list of texts. -/
def textList (ts : List Text) : Json :=
  .arr (ts.map .str)

/-- The texts that are gained: those of the patch that are neither there already nor taken
out. -/
def gained (olds news gone : List Text) : List Text :=
  news.filter fun t => t ∉ olds ∧ t ∉ gone

/-- **A map of a patch unites a list of texts** with its own and takes texts out: the field
holds the texts `olds`, or nothing, the patch lists `news` for it and takes out `gone`, if
anything, and it says nothing else about the field. -/
structure UnitesTexts (base patch : Fields Json) (k : Text) (olds news gone : List Text) :
    Prop where
  held : Fields.get? base k = some (textList olds)
    ∨ Json.isNull (Fields.get? base k) = true ∧ olds = []
  listed : Fields.get? patch k = some (textList news)
  removed : Fields.get? patch (removalStem ++ k) = some (textList gone)
    ∨ Fields.get? patch (removalStem ++ k) = none ∧ gone = []
  unordered : Fields.get? patch (orderStem ++ k) = none
  keeps : Keeps patch k

/-! ## Texts among texts -/

/-- A text is in a list of texts if it is one of them. -/
theorem isIn_map_str (t : Text) (ts : List Text) :
    (Json.str t).isIn (ts.map .str) = decide (t ∈ ts) := by
  rw [Bool.eq_iff_iff, decide_eq_true_iff, Json.isIn, List.any_map, List.any_eq_true]
  constructor
  · rintro ⟨s, hs, hts⟩
    obtain rfl : t = s := beq_iff_eq.mp hts
    exact hs
  · exact fun ht => ⟨t, ht, beq_self_eq_true t⟩

/-- What is left of texts without those in a list of texts. -/
theorem filter_not_isIn_map_str (ts us : List Text) :
    (ts.map Json.str).filter (fun j => !j.isIn (us.map .str))
      = (ts.filter fun t => t ∉ us).map .str := by
  rw [List.filter_map]
  refine congrArg (List.map Json.str) (List.filter_congr fun t _ => ?_)
  rw [Function.comp_apply, isIn_map_str, decide_not]

/-- **Texts are united** as texts. -/
theorem united_map_str (olds news : List Text) :
    united (olds.map .str) (news.map .str) = (olds ++ news.filter fun t => t ∉ olds).map .str := by
  rw [united, filter_not_isIn_map_str, List.map_append]

/-- Texts do not say that they replace a list. -/
theorem any_hasMode_map_str (word : Text) (ts : List Text) :
    (ts.map Json.str).any (hasMode word) = false := by
  rw [List.any_map]
  exact List.any_eq_false.mpr fun _ _ => Bool.false_ne_true

/-! ## What becomes of the field -/

theorem mergeKey?_of_isUnited (hk : isUnited k = true) : mergeKey? k = none := by
  obtain rfl : k = "finalizers" := beq_iff_eq.mp hk
  rfl

theorem isDirective_of_isUnited (hk : isUnited k = true) : isDirective k = false := by
  obtain rfl : k = "finalizers" := beq_iff_eq.mp hk
  rfl

/-- **The texts that a patch lists** are united with those that are there. -/
theorem mergedAt_textList (hk : isUnited k = true) {held : Option Json}
    (hheld : held = some (textList olds) ∨ Json.isNull held = true ∧ olds = []) :
    mergedAt path k (textList news) held
      = .ok (some (textList (olds ++ news.filter fun t => t ∉ olds))) := by
  have hlist : listAt (fieldPath path k) held = .ok (olds.map .str) := by
    rcases hheld with rfl | ⟨hnull, rfl⟩
    · rfl
    · match held, hnull with
      | none, _ => rfl
      | some .null, _ => rfl
  rw [mergedAt, textList, mergedValue, hlist]
  show (listed (fieldPath path k) k (olds.map .str) (news.map .str) _ >>= _) = _
  rw [listed, any_hasMode_map_str, if_neg Bool.false_ne_true, mergeKey?_of_isUnited hk, if_pos hk,
    united_map_str]
  rfl

/-- **The texts that a removal lists** are taken out. -/
theorem revised_removedAt_textList (ts : List Text)
    (h : Fields.get? patch (removalStem ++ k) = some (textList gone)
      ∨ Fields.get? patch (removalStem ++ k) = none ∧ gone = []) :
    Fields.revised removedAt (directivesOf removalStem patch) k (some (textList ts))
      = .ok (some (textList (ts.filter fun t => t ∉ gone))) := by
  have hsearched : ∀ j ∈ ts.map Json.str,
      isSearched (Fields.get? patch (removalStem ++ k)) j = true := by
    rcases h with h | ⟨h, -⟩ <;> exact fun _ _ => by rw [h]; rfl
  rw [textList, revised_removedAt_of_isSearched hsearched]
  rcases h with h | ⟨h, rfl⟩
  · rw [h]
    exact congrArg (fun items => Except.ok (some (Json.arr items)))
      (filter_not_isIn_map_str ts gone)
  · rw [h, filter_isListed_none]
    simp [textList]

/-- What is united and then reduced: the old texts that are left, and behind them what is
gained. -/
theorem filter_append_filter (olds news gone : List Text) :
    (olds ++ news.filter fun t => t ∉ olds).filter (fun t => t ∉ gone)
      = (olds.filter fun t => t ∉ gone) ++ gained olds news gone := by
  rw [List.filter_append, List.filter_filter, gained]
  refine congrArg _ (List.filter_congr fun t _ => ?_)
  rw [Bool.decide_and, Bool.and_comm]

/-- **What becomes of the field**: the old texts that are left, and behind them what is
gained. -/
theorem UnitesTexts.fieldAfter_eq (h : UnitesTexts base patch k olds news gone)
    (hk : isUnited k = true) {names? : Option (List Text)}
    (hnames : retained? path patch = .ok names?) :
    fieldAfter path patch names? k (Fields.get? base k)
      = .ok (some (textList ((olds.filter fun t => t ∉ gone) ++ gained olds news gone))) := by
  have hdata : Fields.get? (dataFields patch) k = some (textList news) := by
    rw [get?_dataFields, isDirective_of_isUnited hk, h.listed]
    rfl
  have hmerged : Fields.revised (mergedAt path) (dataFields patch) k
      (keptAt names? k (Fields.get? base k))
        = .ok (some (textList (olds ++ news.filter fun t => t ∉ olds))) := by
    rw [h.keeps.keptAt_eq hnames, Fields.revised, hdata]
    exact mergedAt_textList hk h.held
  have hreduced := revised_removedAt_textList (olds ++ news.filter fun t => t ∉ olds) h.removed
  rw [filter_append_filter] at hreduced
  refine Outcome.bind_eq_ok_iff.mpr ⟨_, hmerged, Outcome.bind_eq_ok_iff.mpr ⟨_, hreduced, ?_⟩⟩
  rw [Fields.revised, get?_directivesOf, h.unordered]

/-! ## Whether there is a result -/

/-- A field of a patch that is no unknown directive. -/
def isReadable (name : Text) : Bool :=
  name = modeField || name = retainField || !isDirective name
    || (listOf? orderStem name).isSome || (listOf? removalStem name).isSome

theorem exists_addListDirective_iff (path : Text) (ds : ListDirectives) {name : Text} (v : Json) :
    (∃ ds', addListDirective path ds name v = .ok ds') ↔ isReadable name = true := by
  unfold addListDirective isReadable
  by_cases hname : name = modeField ∨ name = retainField ∨ !isDirective name
  · rw [if_pos hname]
    refine iff_of_true ⟨ds, rfl⟩ ?_
    rcases hname with rfl | rfl | hname
    · rfl
    · rfl
    · rw [hname, Bool.or_true, Bool.true_or, Bool.true_or]
  · rw [if_neg hname]
    obtain ⟨hmode, hretain, hdirective⟩ := (not_or.trans (and_congr_right' not_or)).mp hname
    rw [decide_eq_false hmode, decide_eq_false hretain, Bool.eq_false_iff.mpr hdirective]
    cases listOf? orderStem name with
    | some field => exact iff_of_true ⟨_, rfl⟩ rfl
    | none =>
      cases listOf? removalStem name with
      | some field => exact iff_of_true ⟨_, rfl⟩ rfl
      | none => exact iff_of_false (fun ⟨_, h⟩ => by cases h) Bool.false_ne_true

/-- **The list directives of a patch can be read** if it has no unknown ones. -/
theorem exists_listDirectives_iff :
    (∃ ds, listDirectives path patch = .ok ds) ↔ ∀ f ∈ patch, isReadable f.1 = true := by
  unfold listDirectives
  generalize (⟨[], []⟩ : ListDirectives) = ds₀
  induction patch generalizing ds₀ with
  | nil => exact iff_of_true ⟨ds₀, rfl⟩ fun f hf => absurd hf List.not_mem_nil
  | cons f patch ih =>
    rw [List.forall_mem_cons, ← exists_addListDirective_iff path ds₀ f.2, List.foldlM_cons]
    cases hf : addListDirective path ds₀ f.1 f.2 with
    | error e => exact iff_of_false (fun ⟨_, h⟩ => by cases h) (fun ⟨⟨_, h⟩, _⟩ => by cases h)
    | ok ds₁ => exact (ih ds₁).trans (and_iff_right ⟨ds₁, rfl⟩).symm

/-- **A map can be put under its patch** just if its directives can be read and something
becomes of every field. -/
theorem exists_merged_iff (hd : Fields.Distinct patch) (hmode : mode path patch = .ok .merge) :
    (∃ result, merged path base patch = .ok (some result))
      ↔ ∃ names?, retained? path patch = .ok names? ∧ (∀ f ∈ patch, isReadable f.1 = true)
        ∧ ∀ k, ∃ held, fieldAfter path patch names? k (Fields.get? base k) = .ok held := by
  constructor
  · rintro ⟨result, h⟩
    obtain ⟨names?, ds, _, hnames, hds, -, -, hfields⟩ := fieldAfter_of_merged hd hmode h
    exact ⟨names?, hnames, exists_listDirectives_iff.mp ⟨ds, hds⟩, fun k => ⟨_, hfields k⟩⟩
  · rintro ⟨names?, hnames, hreadable, hfields⟩
    obtain ⟨ds, hds⟩ := exists_listDirectives_iff.mpr hreadable
    exact exists_merged_of_fieldAfter hd hmode hnames hds hfields

/-- A patch without what it lists for a field and takes out of it. -/
def withoutList (patch : Fields Json) (k : Text) : Fields Json :=
  Fields.erase (Fields.erase patch k) (removalStem ++ k)

theorem get?_withoutList {name : Text} (hk : name ≠ k) (hr : name ≠ removalStem ++ k) :
    Fields.get? (withoutList patch k) name = Fields.get? patch name := by
  rw [withoutList, Fields.get?_erase, if_neg hr.symm, Fields.get?_erase, if_neg hk.symm]

/-- A name is another than those with a stem if it does not start with it. -/
theorem ne_stem_append {stem name : Text} (h : listOf? stem name = none) (field : Text) :
    name ≠ stem ++ field := by
  intro heq
  rw [listOf?_eq_some_iff.mpr heq] at h
  cases h

/-- A directive about the map as a whole, or one that orders a list. -/
theorem get?_withoutList_of_isDirective (hk : isDirective k = false) {name : Text}
    (hname : isDirective name = true) (hstem : listOf? removalStem name = none) :
    Fields.get? (withoutList patch k) name = Fields.get? patch name := by
  refine get?_withoutList ?_ (ne_stem_append hstem k)
  rintro rfl
  exact Bool.eq_false_iff.mp hk hname

theorem get?_withoutList_order (hk : isDirective k = false) (k' : Text) :
    Fields.get? (withoutList patch k) (orderStem ++ k') = Fields.get? patch (orderStem ++ k') :=
  get?_withoutList_of_isDirective hk rfl (listOf?_removalStem_eq_none (listOf?_eq_some_iff.mpr rfl))

/-- What the patch says about one field is nothing to the others. -/
theorem fieldAfter_withoutList (hk : isDirective k = false) {k' : Text} (hne : k' ≠ k)
    (names? : Option (List Text)) (held : Option Json) :
    fieldAfter path (withoutList patch k) names? k' held
      = fieldAfter path patch names? k' held := by
  have hdata : Fields.get? (dataFields (withoutList patch k)) k'
      = Fields.get? (dataFields patch) k' := by
    rw [get?_dataFields, get?_dataFields]
    cases hk' : isDirective k' with
    | true => rfl
    | false =>
      have hr : k' ≠ removalStem ++ k :=
        ne_stem_append (listOf?_eq_none_of_not_isDirective (by decide) hk') k
      rw [get?_withoutList hne hr]
  have hremoval : Fields.get? (withoutList patch k) (removalStem ++ k')
      = Fields.get? patch (removalStem ++ k') :=
    get?_withoutList (ne_stem_append (listOf?_eq_none_of_not_isDirective (by decide) hk) k').symm
      fun h => hne (List.append_cancel_left h)
  unfold fieldAfter Fields.revised
  rw [hdata, get?_directivesOf, get?_directivesOf, get?_directivesOf, get?_directivesOf, hremoval,
    get?_withoutList_order hk]

/-- A patch lets a field be kept whatever it lists for it. -/
theorem Keeps.withoutList (h : Keeps patch k) (hk : isDirective k = false) :
    Keeps (withoutList patch k) k := by
  have hmode : Fields.get? (Patch.withoutList patch k) modeField = Fields.get? patch modeField :=
    get?_withoutList_of_isDirective hk (by decide) (by decide)
  have hretain : Fields.get? (Patch.withoutList patch k) retainField
      = Fields.get? patch retainField :=
    get?_withoutList_of_isDirective hk (by decide) (by decide)
  exact ⟨hmode ▸ h.mode, hretain ▸ h.retained⟩

/-- All names of a patch can be read if those without the list can. -/
theorem isReadable_withoutList_iff (hk : isDirective k = false) :
    (∀ f ∈ withoutList patch k, isReadable f.1 = true) ↔ ∀ f ∈ patch, isReadable f.1 = true := by
  refine ⟨fun hrest f hf => ?_, fun hall f hf =>
    hall f (Fields.mem_of_mem_erase (Fields.mem_of_mem_erase hf))⟩
  by_cases hfk : f.1 = k
  · rw [hfk, isReadable, hk, Bool.not_false, Bool.or_true, Bool.true_or, Bool.true_or]
  · by_cases hfr : f.1 = removalStem ++ k
    · rw [isReadable, listOf?_eq_some_iff.mpr hfr]
      exact Bool.or_true _
    · exact hrest f (List.mem_filter.mpr
        ⟨List.mem_filter.mpr ⟨hf, decide_eq_true hfk⟩, decide_eq_true hfr⟩)

/-- **A union stands in the way of nothing**: the map can be put under its patch just if it can
be put under the rest of the patch. -/
theorem UnitesTexts.exists_merged_iff (h : UnitesTexts base patch k olds news gone)
    (hk : isUnited k = true) (hd : Fields.Distinct patch) :
    (∃ result, merged path base patch = .ok (some result))
      ↔ ∃ rest, merged path base (withoutList patch k) = .ok (some rest) := by
  have hdirective := isDirective_of_isUnited hk
  have hkeeps := h.keeps.withoutList hdirective
  have hrest : Fields.Distinct (withoutList patch k) := (hd.erase k).erase _
  have homits : Omits (withoutList patch k) k := by
    refine ⟨?_, (get?_withoutList_order hdirective k).trans h.unordered, ?_⟩
    · rw [withoutList, Fields.get?_erase, Fields.get?_erase, if_pos rfl, ite_self]
    · rw [withoutList, Fields.get?_erase, if_pos rfl]
  have hretained : retained? path (withoutList patch k) = retained? path patch := by
    rw [retained?, retained?,
      get?_withoutList_of_isDirective hdirective (by decide) (by decide)]
  rw [Patch.exists_merged_iff hd (h.keeps.mode_eq path),
    Patch.exists_merged_iff hrest (hkeeps.mode_eq path), hretained,
    isReadable_withoutList_iff hdirective]
  refine exists_congr fun names? => and_congr_right fun hnames => and_congr_right fun _ =>
    forall_congr' fun k' => ?_
  by_cases hne : k' = k
  · subst hne
    exact iff_of_true ⟨_, h.fieldAfter_eq hk hnames⟩
      ⟨_, homits.fieldAfter_eq hkeeps (hretained.trans hnames) _⟩
  · rw [fieldAfter_withoutList hdirective hne]

/-- **Texts are united in order.** What the field holds afterwards is a list of texts: those that
were there before or are listed by the patch, and that are not taken out. First come the old
ones that are left, in their order, and then those that are gained, in the patch's order. No
text is there twice just if none is gained twice. The rest of the patch has no part in this, and
whether it can be merged does not depend on the list. -/
theorem texts_are_united_in_order (hk : isUnited k = true) (hd : Fields.Distinct patch)
    (h : UnitesTexts base patch k olds news gone) (holds : olds.Nodup) :
    ((∃ result, merged path base patch = .ok (some result))
        ↔ ∃ rest, merged path base (withoutList patch k) = .ok (some rest))
      ∧ ∀ result?, merged path base patch = .ok result? → ∃ result texts, result? = some result
        ∧ Fields.get? result k = some (textList texts)
        ∧ (∀ t, t ∈ texts ↔ (t ∈ olds ∨ t ∈ news) ∧ t ∉ gone)
        ∧ texts = (olds.filter fun t => t ∉ gone) ++ gained olds news gone
        ∧ (texts.Nodup ↔ (gained olds news gone).Nodup) := by
  refine ⟨h.exists_merged_iff hk hd, fun result? hmerged => ?_⟩
  obtain ⟨names?, _, result, hnames, -, hresult, -, hfields⟩ :=
    fieldAfter_of_merged hd (h.keeps.mode_eq path) hmerged
  have hheld := (h.fieldAfter_eq hk hnames).symm.trans (hfields k)
  refine ⟨result, _, hresult, (Except.ok.inj hheld).symm, fun t => ?_, rfl, ?_⟩
  · simp only [gained, List.mem_append, List.mem_filter, decide_eq_true_eq]
    tauto
  · rw [List.nodup_append]
    refine ⟨fun hall => hall.2.1, fun hgained => ⟨holds.filter _, hgained, fun t ht s hs => ?_⟩⟩
    rintro rfl
    have hnew := of_decide_eq_true (List.mem_filter.mp hs).2
    exact hnew.1 (List.mem_of_mem_filter ht)

/-- An object that two finalizers hold. -/
def heldTwice : Fields Json :=
  [("kind", .str "Pod"), ("finalizers", textList ["a", "b"])]

/-- A patch that adds a finalizer that is there, one that is new, and twice one that it takes
out. -/
def thirdForFirst : Fields Json :=
  [("$deleteFromPrimitiveList/finalizers", textList ["a", "d"]),
    ("finalizers", textList ["d", "b", "c", "d"])]

theorem texts_are_united_in_order_thirdForFirst :
    ∃ result, merged "" heldTwice thirdForFirst = .ok (some result)
      ∧ Fields.get? result "finalizers" = some (textList ["b", "c"])
      ∧ (["b", "c"] : List Text).Nodup := by
  have hunites : UnitesTexts heldTwice thirdForFirst "finalizers" ["a", "b"] ["d", "b", "c", "d"]
      ["a", "d"] := ⟨.inl rfl, rfl, .inl rfl, rfl, ⟨rfl, .inl rfl⟩⟩
  obtain ⟨hmerges, hresult⟩ :=
    @texts_are_united_in_order "" _ _ _ _ _ _ (by decide) (by decide) hunites (by decide)
  obtain ⟨result, hmerged⟩ := hmerges.mpr ⟨_, rfl⟩
  obtain ⟨_, texts, ⟨⟩, hheld, -, rfl, hnodup⟩ := hresult _ hmerged
  exact ⟨result, hmerged, hheld, hnodup.mpr (by decide)⟩

/-! ### A text that is listed twice -/

/-- **A text that a patch lists twice is there twice.** -/
theorem exists_text_gained_twice :
    ¬∀ (base patch : Fields Json) (olds news gone : List Text) (result : Fields Json),
      Fields.Distinct patch → UnitesTexts base patch "finalizers" olds news gone → olds.Nodup →
      mergedObject base patch = .ok result →
        ∃ texts, Fields.get? result "finalizers" = some (textList texts) ∧ texts.Nodup := by
  intro h
  have hunites : UnitesTexts [("finalizers", textList ["a"])]
      [("finalizers", textList ["b", "b"])] "finalizers" ["a"] ["b", "b"] [] :=
    ⟨.inl rfl, rfl, .inr ⟨rfl, rfl⟩, rfl, ⟨rfl, .inl rfl⟩⟩
  obtain ⟨texts, hheld, hnodup⟩ := h _ _ _ _ _ [("finalizers", textList ["a", "b", "b"])]
    (by decide) hunites (by decide) rfl
  have htexts : (["a", "b", "b"] : List Text) = texts :=
    (List.map_inj_right fun _ _ => Json.str.inj).mp (Json.arr.inj (Option.some.inj hheld))
  subst htexts
  exact absurd hnodup (by decide)

end Patch
end Rollout
