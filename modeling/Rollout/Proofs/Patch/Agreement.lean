import Rollout.Patch.Document
import Rollout.Proofs.Patch.Fieldwise
import Rollout.Proofs.Text.SurrogatePair

/-!
# Objects that agree but for one field

The copy of an object that is patched to see what comes of it has its kind written in,
which the stored object may lack. The two agree in all other fields, in their order too
(`Patch.AgreesBut`), and a merge keeps it so (`Patch.AgreesBut.mergedObject`): no field looks
at another, and wherever a patch fits the text it fits an absent field.

The order of the fields counts, since names that are read as one are written one after
the other (`Patch.AgreesBut.get?_reread`).
-/

namespace Rollout
namespace Patch

/-- What a field holds in the one and in the other: the same, or a text and nothing. -/
def IsTextOrSame (held held' : Option Json) : Prop :=
  held = held' ∨ (∃ t, held = some (.str t)) ∧ held' = none

/-- **Two objects agree but for one field**, which may hold a text in the first and be
absent from the second. -/
structure AgreesBut (k : Text) (fs gs : Fields Json) : Prop where
  rest : Fields.erase fs k = Fields.erase gs k
  field : IsTextOrSame (Fields.get? fs k) (Fields.get? gs k)

variable {k : Text} {fs gs : Fields Json}

theorem agreesBut_refl (k : Text) (fs : Fields Json) : AgreesBut k fs fs :=
  ⟨rfl, .inl rfl⟩

theorem AgreesBut.get? (h : AgreesBut k fs gs) {name : Text} (hk : k ≠ name) :
    Fields.get? fs name = Fields.get? gs name :=
  Fields.get?_eq_of_erase_eq h.rest hk

theorem AgreesBut.put (h : AgreesBut k fs gs) {name : Text} (hk : name ≠ k)
    (held : Option Json) : AgreesBut k (Fields.put fs name held) (Fields.put gs name held) where
  rest := by rw [Fields.erase_put, Fields.erase_put, if_neg hk, if_neg hk, h.rest]
  field := by
    rw [Fields.get?_put, Fields.get?_put, if_neg hk, if_neg hk]
    exact h.field

/-- A phase fits an absent field wherever it fits a text. -/
def OverlooksText (f : Text → Json → Option Json → Outcome (Option Json)) (k : Text) : Prop :=
  ∀ v t held, f k v (some (.str t)) = .ok held →
    ∃ held', f k v none = .ok held' ∧ IsTextOrSame held held'

theorem AgreesBut.revise {f : Text → Json → Option Json → Outcome (Option Json)}
    (hf : OverlooksText f k) (h : AgreesBut k fs gs) {d : Text × Json} {fs' : Fields Json}
    (hfs : Fields.revise f fs d = .ok fs') :
    ∃ gs', Fields.revise f gs d = .ok gs' ∧ AgreesBut k fs' gs' := by
  obtain ⟨held, hheld, rfl⟩ := Fields.revise_eq_ok_iff.mp hfs
  by_cases hk : d.1 = k
  · subst hk
    have hother : ∃ held', f d.1 d.2 (Fields.get? gs d.1) = .ok held' ∧ IsTextOrSame held held' := by
      rcases h.field with heq | ⟨⟨t, ht⟩, hnone⟩
      · exact ⟨held, heq ▸ hheld, .inl rfl⟩
      · rw [ht] at hheld
        rw [hnone]
        exact hf d.2 t held hheld
    obtain ⟨held', hheld', hpair⟩ := hother
    refine ⟨_, Fields.revise_eq_ok_iff.mpr ⟨held', hheld', rfl⟩, ?_, ?_⟩
    · rw [Fields.erase_put, Fields.erase_put, if_pos rfl, if_pos rfl, h.rest]
    · rw [Fields.get?_put, Fields.get?_put, if_pos rfl, if_pos rfl]
      exact hpair
  · rw [h.get? (Ne.symm hk)] at hheld
    exact ⟨_, Fields.revise_eq_ok_iff.mpr ⟨held, hheld, rfl⟩, h.put hk held⟩

theorem AgreesBut.foldlM_revise {f : Text → Json → Option Json → Outcome (Option Json)}
    (hf : OverlooksText f k) (h : AgreesBut k fs gs) {ds fs' : Fields Json}
    (hfs : ds.foldlM (Fields.revise f) fs = .ok fs') :
    ∃ gs', ds.foldlM (Fields.revise f) gs = .ok gs' ∧ AgreesBut k fs' gs' := by
  induction ds generalizing fs gs with
  | nil =>
    cases hfs
    exact ⟨gs, rfl, h⟩
  | cons d ds ih =>
    rw [List.foldlM_cons] at hfs ⊢
    obtain ⟨fs₁, h₁, hfs⟩ := Outcome.bind_eq_ok_iff.mp hfs
    obtain ⟨gs₁, hg₁, hagree⟩ := h.revise hf h₁
    obtain ⟨gs', hgs', hagree'⟩ := ih hagree hfs
    exact ⟨gs', Outcome.bind_eq_ok_iff.mpr ⟨gs₁, hg₁, hgs'⟩, hagree'⟩

/-! ## The phases of a merge -/

/-- What is merged into a text is merged into nothing: null and scalars are. -/
theorem overlooksText_mergedAt (path k : Text) : OverlooksText (mergedAt path) k := by
  intro v t held h
  unfold mergedAt at h ⊢
  cases v with
  | obj patch =>
    rw [mergedValue] at h
    obtain ⟨_, hbase, -⟩ := Outcome.bind_eq_ok_iff.mp h
    cases hbase
  | arr items =>
    rw [mergedValue] at h
    obtain ⟨_, hbase, -⟩ := Outcome.bind_eq_ok_iff.mp h
    cases hbase
  | _ => exact ⟨held, h, .inl rfl⟩

/-- Neither a text nor nothing is a list from which something could be removed. -/
theorem overlooksText_removedAt (k : Text) : OverlooksText removedAt k := by
  intro v t held h
  cases h
  exact ⟨none, rfl, .inr ⟨⟨t, rfl⟩, rfl⟩⟩

/-- Neither a text nor nothing is a list that could be put in order. -/
theorem overlooksText_orderedAt (path k : Text) : OverlooksText (orderedAt path) k := by
  intro v t held h
  cases h
  exact ⟨none, rfl, .inr ⟨⟨t, rfl⟩, rfl⟩⟩

theorem AgreesBut.keptFields (h : AgreesBut k fs gs) (names? : Option (List Text)) :
    AgreesBut k (Patch.keptFields names? fs) (Patch.keptFields names? gs) where
  rest := by
    cases names? with
    | none => exact h.rest
    | some names =>
      have hcomm : ∀ fs : Fields Json, Fields.erase (fs.filter (fun f => names.contains f.1)) k
          = (Fields.erase fs k).filter (fun f => names.contains f.1) := by
        intro fs
        unfold Fields.erase
        rw [List.filter_filter, List.filter_filter]
        exact List.filter_congr fun f _ => Bool.and_comm _ _
      show Fields.erase (fs.filter _) k = Fields.erase (gs.filter _) k
      rw [hcomm, hcomm, h.rest]
  field := by
    rw [get?_keptFields, get?_keptFields]
    cases names? with
    | none => exact h.field
    | some names =>
      simp only [keptAt]
      split
      · exact h.field
      · exact .inl rfl

/-- **Objects that agree but for one field agree so after a merge.** -/
theorem AgreesBut.mergedObject (h : AgreesBut k fs gs) {patch fs' : Fields Json}
    (hfs : mergedObject fs patch = .ok fs') :
    ∃ gs', Patch.mergedObject gs patch = .ok gs' ∧ AgreesBut k fs' gs' := by
  obtain ⟨result?, hmerged, hfs⟩ := Outcome.bind_eq_ok_iff.mp hfs
  obtain rfl := Except.ok.inj hfs
  change merged "" fs patch = .ok result? at hmerged
  have hobject : ∀ again? : Option (Fields Json), merged "" gs patch = .ok again? →
      Patch.mergedObject gs patch = .ok (again?.getD []) :=
    fun _ h => Outcome.bind_eq_ok_iff.mpr ⟨_, h, rfl⟩
  obtain ⟨m, hmode, -⟩ := Outcome.bind_eq_ok_iff.mp hmerged
  cases m with
  | replace =>
    obtain rfl := Except.ok.inj ((merged_of_replace hmode fs).symm.trans hmerged)
    exact ⟨_, hobject _ (merged_of_replace hmode gs), agreesBut_refl k _⟩
  | delete =>
    obtain rfl := Except.ok.inj ((merged_of_delete hmode fs).symm.trans hmerged)
    exact ⟨_, hobject _ (merged_of_delete hmode gs), agreesBut_refl k _⟩
  | merge =>
    obtain ⟨names?, ds, hnames, hds⟩ := exists_directives_of_merged hmode hmerged
    rw [merged_eq_phases hmode hnames hds] at hmerged
    obtain ⟨data, hdata, hmerged⟩ := Outcome.bind_eq_ok_iff.mp hmerged
    obtain ⟨reduced, hreduced, hmerged⟩ := Outcome.bind_eq_ok_iff.mp hmerged
    obtain ⟨result, hresult, hmerged⟩ := Outcome.bind_eq_ok_iff.mp hmerged
    obtain rfl := Except.ok.inj hmerged
    obtain ⟨data', hdata', h₁⟩ := (h.keptFields names?).foldlM_revise
      (overlooksText_mergedAt "" k) hdata
    obtain ⟨reduced', hreduced', h₂⟩ := h₁.foldlM_revise (overlooksText_removedAt k) hreduced
    obtain ⟨result', hresult', h₃⟩ := h₂.foldlM_revise (overlooksText_orderedAt "" k) hresult
    refine ⟨result', hobject (some result') ?_, h₃⟩
    rw [merged_eq_phases hmode hnames hds]
    exact Outcome.bind_eq_ok_iff.mpr ⟨data', hdata', Outcome.bind_eq_ok_iff.mpr
      ⟨reduced', hreduced', Outcome.bind_eq_ok_iff.mpr ⟨result', hresult', rfl⟩⟩⟩

/-! ## Objects read again -/

theorem erase_rereadFields (hk : ∀ name : Text, name.joined = k ↔ name = k) (fs : Fields Json) :
    Fields.erase (Json.rereadFields fs) k = Json.rereadFields (Fields.erase fs k) := by
  induction fs with
  | nil => rfl
  | cons f fs ih =>
    obtain ⟨name, v⟩ := f
    rw [Json.rereadFields, Fields.erase_cons, Fields.erase_cons, ih]
    by_cases hn : name = k
    · rw [if_pos ((hk name).mpr hn), if_pos hn]
    · rw [if_neg fun h => hn ((hk name).mp h), if_neg hn, Json.rereadFields]

/-- **What is read again of objects that agree but for one field** agrees, if no other
name is read as the field's. -/
theorem AgreesBut.get?_reread (hk : ∀ name : Text, name.joined = k ↔ name = k)
    (h : AgreesBut k fs gs) {name : Text} (hne : k ≠ name) :
    Fields.get? (Fields.reread fs) name = Fields.get? (Fields.reread gs) name := by
  refine Fields.get?_eq_of_erase_eq ?_ hne
  unfold Fields.reread
  rw [Fields.erase_ofPairs, Fields.erase_ofPairs, erase_rereadFields hk, erase_rereadFields hk,
    h.rest]

/-- **A text that is written in changes nothing else** of the object that is read. -/
theorem agreesBut_reread_set (hk : ∀ name : Text, name.joined = k ↔ name = k)
    (hfs : Fields.get? fs k = none) (t : Text) :
    AgreesBut k (Fields.reread (Fields.set fs k (.str t))) (Fields.reread fs) := by
  have hset : Fields.reread (Fields.set fs k (.str t))
      = Fields.set (Fields.reread fs) k (.str t.joined) := by
    have happend : ∀ gs : Fields Json,
        Json.rereadFields (gs ++ [(k, .str t)]) = Json.rereadFields gs ++ [(k, .str t.joined)] := by
      intro gs
      induction gs with
      | nil =>
        show [(k.joined, _)] = _
        rw [(hk k).mpr rfl]
        rfl
      | cons g gs ih => exact congrArg (_ :: ·) ih
    rw [Fields.set_eq_append (Fields.get?_eq_none_iff.mp hfs), Fields.reread, happend,
      Fields.ofPairs, List.foldl_append]
    rfl
  rw [hset]
  refine ⟨by rw [Fields.erase_set, if_pos rfl], .inr ⟨⟨t.joined, ?_⟩, ?_⟩⟩
  · rw [Fields.get?_set, if_pos rfl]
  · -- the field is absent from what is read, since no name is read as its own
    have herase : Fields.erase (Fields.reread fs) k = Fields.reread fs := by
      have hnone : Fields.erase fs k = fs :=
        List.filter_eq_self.mpr fun f hf => decide_eq_true fun h =>
          Fields.get?_eq_none_iff.mp hfs (h ▸ List.mem_map_of_mem hf)
      unfold Fields.reread
      rw [Fields.erase_ofPairs, erase_rereadFields hk, hnone]
    rw [← herase, Fields.get?_erase, if_pos rfl]

end Patch
end Rollout
