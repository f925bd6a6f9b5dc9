import Mathlib.Data.List.Nodup
import Rollout.Fields

/-!
# Fields as a finite map

With distinct names a list of fields is determined by its look-ups, up to
order: a name is looked up exactly where it stands
(`Fields.get?_eq_some_iff`), and two lists with the same names are equally
long (`Fields.length_eq_of_isSome`). The order is what is left out of account
by everything that is said of fields through `Fields.get?`.
-/

namespace Rollout
namespace Fields

variable {α : Type}

instance (fs : Fields α) : Decidable (Distinct fs) :=
  inferInstanceAs (Decidable (names fs).Nodup)

theorem distinct_cons_iff {k : Text} {v : α} {fs : Fields α} :
    Distinct ((k, v) :: fs) ↔ k ∉ names fs ∧ Distinct fs :=
  List.nodup_cons

theorem distinct_nil : Distinct ([] : Fields α) :=
  List.nodup_nil

/-- What is looked up is there. -/
theorem mem_of_get? {fs : Fields α} {k : Text} {v : α} (h : get? fs k = some v) :
    (k, v) ∈ fs := by
  induction fs with
  | nil => simp at h
  | cons f fs ih =>
    obtain ⟨k', w⟩ := f
    rw [get?_cons] at h
    by_cases hk : k' = k
    · rw [if_pos hk] at h
      rw [hk, Option.some.inj h]
      exact List.mem_cons_self
    · rw [if_neg hk] at h
      exact List.mem_cons_of_mem _ (ih h)

/-- **A name is not looked up exactly if it is none of the names.** -/
theorem get?_eq_none_iff {fs : Fields α} {k : Text} : get? fs k = none ↔ k ∉ names fs := by
  rw [← has_iff, has, Bool.not_eq_true, Option.isSome_eq_false_iff, Option.isNone_iff_eq_none]

theorem mem_names_of_mem {fs : Fields α} {k : Text} {v : α} (h : (k, v) ∈ fs) : k ∈ names fs :=
  List.mem_map_of_mem (f := Prod.fst) h

/-- **With distinct names, what is there is what is looked up.** -/
theorem get?_eq_some_iff {fs : Fields α} (hd : Distinct fs) {k : Text} {v : α} :
    get? fs k = some v ↔ (k, v) ∈ fs := by
  refine ⟨mem_of_get?, fun h => ?_⟩
  induction fs with
  | nil => simp at h
  | cons f fs ih =>
    obtain ⟨k', w⟩ := f
    obtain ⟨hk', hd⟩ := distinct_cons_iff.mp hd
    rw [get?_cons]
    rcases List.mem_cons.mp h with h | h
    · rw [Prod.mk.injEq] at h
      rw [if_pos h.1.symm, h.2]
    · have hne : k' ≠ k := by
        rintro rfl
        exact hk' (mem_names_of_mem h)
      rw [if_neg hne]
      exact ih hd h

/-- Fields that are left of distinct ones are distinct. -/
theorem Distinct.filter {fs : Fields α} (h : Distinct fs) (p : Text × α → Bool) :
    Distinct (fs.filter p) :=
  h.sublist (List.filter_sublist.map _)

/-- Reading what is left of fields that are chosen by their names. -/
theorem get?_filter (fs : Fields α) (p : Text → Bool) (k : Text) :
    get? (fs.filter (fun f => p f.1)) k = if p k then get? fs k else none := by
  induction fs with
  | nil => simp
  | cons f fs ih =>
    obtain ⟨k', v⟩ := f
    by_cases hk : k' = k
    · subst hk
      by_cases hp : p k' = true
      · simp [hp, get?_cons]
      · simpa [hp] using ih
    · by_cases hp : p k' = true
      · rw [List.filter_cons, if_pos hp, get?_cons, if_neg hk, get?_cons, if_neg hk]
        exact ih
      · rw [List.filter_cons, if_neg hp, get?_cons, if_neg hk]
        exact ih

/-- **Fields with the same names are equally many.** -/
theorem length_eq_of_isSome {β : Type} {fs : Fields α} {gs : Fields β} (hf : Distinct fs)
    (hg : Distinct gs) (h : ∀ k, (get? fs k).isSome = (get? gs k).isSome) :
    fs.length = gs.length := by
  have hp : (names fs).Perm (names gs) := by
    refine (List.perm_ext_iff_of_nodup hf hg).mpr (fun k => ?_)
    rw [← has_iff, ← has_iff, has, has, h k]
  have hlen := hp.length_eq
  rwa [names, names, List.length_map, List.length_map] at hlen

/-- **Fields in which every look-up is the same** are the same but for their order. -/
theorem perm_of_get?_eq {fs gs : Fields α} (hf : Distinct fs) (hg : Distinct gs)
    (h : ∀ k, get? fs k = get? gs k) : fs.Perm gs := by
  refine (List.perm_ext_iff_of_nodup (List.Nodup.of_map _ hf) (List.Nodup.of_map _ hg)).mpr ?_
  rintro ⟨k, v⟩
  rw [← get?_eq_some_iff hf, ← get?_eq_some_iff hg, h]

/-- The value under a name replaced, or the name dropped if there is none. -/
def put (fs : Fields α) (k : Text) : Option α → Fields α
  | none => erase fs k
  | some v => set fs k v

/-- Reading after putting. -/
theorem get?_put (fs : Fields α) (k : Text) (v? : Option α) (k' : Text) :
    get? (put fs k v?) k' = if k = k' then v? else get? fs k' := by
  cases v? with
  | none => exact get?_erase fs k k'
  | some v => exact get?_set fs k v k'

/-- Putting keeps the names distinct. -/
theorem Distinct.put {fs : Fields α} (h : Distinct fs) (k : Text) (v? : Option α) :
    Distinct (put fs k v?) := by
  cases v? with
  | none => exact h.erase k
  | some v => exact h.set k v

/-- What is written twice is what was written last. -/
theorem set_set (fs : Fields α) (k : Text) (v w : α) : set (set fs k v) k w = set fs k w := by
  induction fs with
  | nil => exact if_pos rfl
  | cons f fs ih =>
    obtain ⟨k', u⟩ := f
    rw [set]
    split
    · rename_i hk
      rw [set, set, if_pos hk, if_pos hk]
    · rename_i hk
      rw [set, set, if_neg hk, if_neg hk, ih]

theorem mem_set {fs : Fields α} {k : Text} {v : α} {f : Text × α} (h : f ∈ set fs k v) :
    f = (k, v) ∨ f ∈ fs := by
  induction fs with
  | nil => exact .inl (List.mem_singleton.mp h)
  | cons g fs ih =>
    obtain ⟨k', w⟩ := g
    rw [set] at h
    split at h
    · rename_i hk
      rcases List.mem_cons.mp h with h | h
      · exact .inl (hk ▸ h)
      · exact .inr (List.mem_cons_of_mem _ h)
    · rcases List.mem_cons.mp h with h | h
      · exact .inr (h ▸ List.mem_cons_self)
      · exact (ih h).imp_right (List.mem_cons_of_mem _)

theorem mem_of_mem_erase {fs : Fields α} {k : Text} {f : Text × α} (h : f ∈ erase fs k) :
    f ∈ fs :=
  (List.mem_filter.mp h).1

/-- What stands in fields after putting was put there or stood there before. -/
theorem mem_put {fs : Fields α} {k : Text} {held : Option α} {f : Text × α}
    (h : f ∈ put fs k held) : (∃ v, held = some v ∧ f = (k, v)) ∨ f ∈ fs := by
  cases held with
  | none => exact .inr (mem_of_mem_erase h)
  | some v => exact (mem_set h).imp_left (fun hf => ⟨v, rfl, hf⟩)

/-! ## Fields but for one name -/

theorem erase_cons (f : Text × α) (fs : Fields α) (k : Text) :
    erase (f :: fs) k = if f.1 = k then erase fs k else f :: erase fs k := by
  unfold erase
  rw [List.filter_cons]
  by_cases hk : f.1 = k <;> simp [hk]

theorem names_erase (fs : Fields α) (k : Text) : names (erase fs k) = (names fs).filter (· ≠ k) :=
  (List.filter_map (f := Prod.fst) (p := fun name : Text => decide (name ≠ k))).symm

/-- Erasing after writing. -/
theorem erase_set (fs : Fields α) (k k' : Text) (v : α) :
    erase (set fs k v) k' = if k = k' then erase fs k' else set (erase fs k') k v := by
  induction fs with
  | nil => exact erase_cons (k, v) [] k'
  | cons f fs ih =>
    obtain ⟨k₀, w⟩ := f
    rw [set, erase_cons]
    by_cases h₀ : k₀ = k
    · subst h₀
      rw [if_pos rfl, erase_cons]
      by_cases hk : k₀ = k' <;> simp [hk, set]
    · rw [if_neg h₀, erase_cons, ih]
      by_cases hk : k = k' <;> by_cases hk₀ : k₀ = k' <;> simp [hk, hk₀, set, h₀]

/-- Erasing twice, in either order. -/
theorem erase_comm (fs : Fields α) (k k' : Text) :
    erase (erase fs k) k' = erase (erase fs k') k := by
  unfold erase
  rw [List.filter_filter, List.filter_filter]
  exact List.filter_congr fun f _ => Bool.and_comm _ _

/-- Erasing after putting. -/
theorem erase_put (fs : Fields α) (k k' : Text) (v? : Option α) :
    erase (put fs k v?) k' = if k = k' then erase fs k' else put (erase fs k') k v? := by
  cases v? with
  | none =>
    show erase (erase fs k) k' = if k = k' then erase fs k' else erase (erase fs k') k
    by_cases hk : k = k'
    · rw [if_pos hk, hk]
      unfold erase
      rw [List.filter_filter]
      exact List.filter_congr fun f _ => Bool.and_self _
    · rw [if_neg hk, erase_comm]
  | some v => exact erase_set fs k k' v

/-- What is looked up under any other name is what is left. -/
theorem get?_eq_of_erase_eq {fs gs : Fields α} {k k' : Text} (h : erase fs k = erase gs k)
    (hk : k ≠ k') : get? fs k' = get? gs k' := by
  have hget := congrArg (fun fs => get? fs k') h
  simp only [get?_erase, if_neg hk] at hget
  exact hget

/-! ## Fields written one after the other -/

/-- Writing a new name puts it behind all others. -/
theorem set_eq_append {fs : Fields α} {k : Text} (hk : k ∉ names fs) (v : α) :
    set fs k v = fs ++ [(k, v)] := by
  induction fs with
  | nil => rfl
  | cons f fs ih =>
    obtain ⟨k', w⟩ := f
    obtain ⟨hne, hmem⟩ := not_or.mp (mt List.mem_cons.mpr hk)
    rw [set, if_neg (Ne.symm hne), ih hmem]
    rfl

/-- Fields written behind others that share no name with them. -/
theorem foldl_set_eq_append (fs gs : Fields α) (h : Distinct (fs ++ gs)) :
    gs.foldl (fun fs p => set fs p.1 p.2) fs = fs ++ gs := by
  induction gs generalizing fs with
  | nil => rw [List.append_nil]; rfl
  | cons g gs ih =>
    obtain ⟨k, v⟩ := g
    have hk : k ∉ names fs := by
      intro hmem
      rw [Distinct, names, List.map_append, List.nodup_append] at h
      exact h.2.2 k hmem k List.mem_cons_self rfl
    rw [List.foldl_cons, set_eq_append hk, ih _ (by rwa [List.append_assoc]), List.append_assoc]
    rfl

/-- **Fields with distinct names are written as they are.** -/
theorem ofPairs_eq {fs : Fields α} (h : Distinct fs) : ofPairs fs = fs :=
  foldl_set_eq_append [] fs h

/-- **Whatever is written one after the other has distinct names.** -/
theorem distinct_ofPairs (ps : List (Text × α)) : Distinct (ofPairs ps) := by
  have hstep : ∀ fs : Fields α, Distinct fs →
      Distinct (ps.foldl (fun fs p => set fs p.1 p.2) fs) := by
    induction ps with
    | nil => exact fun _ h => h
    | cons p ps ih => exact fun fs h => ih _ (h.set p.1 p.2)
  exact hstep [] distinct_nil

/-- Erasing what was written one after the other. -/
theorem erase_ofPairs (ps : List (Text × α)) (k : Text) :
    erase (ofPairs ps) k = ofPairs (erase ps k) := by
  have hstep : ∀ fs : Fields α, erase (ps.foldl (fun fs p => set fs p.1 p.2) fs) k
      = (erase ps k).foldl (fun fs p => set fs p.1 p.2) (erase fs k) := by
    induction ps with
    | nil => exact fun _ => rfl
    | cons p ps ih =>
      intro fs
      rw [List.foldl_cons, ih, erase_set, erase_cons]
      by_cases hk : p.1 = k
      · rw [if_pos hk, if_pos hk]
      · rw [if_neg hk, if_neg hk, List.foldl_cons]
  exact hstep []

/-- What was written one after the other was among what there was to write. -/
theorem mem_of_mem_ofPairs {ps : List (Text × α)} {f : Text × α} (h : f ∈ ofPairs ps) :
    f ∈ ps := by
  have hstep : ∀ fs : Fields α, f ∈ ps.foldl (fun fs p => set fs p.1 p.2) fs →
      f ∈ fs ∨ f ∈ ps := by
    clear h
    induction ps with
    | nil => exact fun _ h => .inl h
    | cons p ps ih =>
      intro fs h
      rcases ih _ h with h | h
      · rcases mem_set h with rfl | h
        · exact .inr List.mem_cons_self
        · exact .inl h
      · exact .inr (List.mem_cons_of_mem _ h)
  exact (hstep [] h).resolve_left List.not_mem_nil

end Fields
end Rollout
