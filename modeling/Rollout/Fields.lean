import Rollout.Text.Basic

/-!
# Fields in order

A document's object is a list of fields, in the order in which they were
first written. Reading takes the first field of a name; writing keeps the
place of a name that is there and puts a new one at the end; erasing drops
the name. With distinct names (`Fields.Distinct`) a list of fields is a
finite map that remembers its order, and each operation keeps it so.
-/

namespace Rollout

/-- Fields with values in `α`, in order. -/
abbrev Fields (α : Type) := List (Text × α)

namespace Fields

variable {α : Type}

/-- **The value under a name.** -/
def get? : Fields α → Text → Option α
  | [], _ => none
  | (k, v) :: rest, name => if k = name then some v else get? rest name

/-- The name is there. -/
def has (fs : Fields α) (name : Text) : Bool :=
  (get? fs name).isSome

/-- **The value under a name replaced**, or added behind all others. -/
def set : Fields α → Text → α → Fields α
  | [], name, v => [(name, v)]
  | (k, w) :: rest, name, v => if k = name then (k, v) :: rest else (k, w) :: set rest name v

/-- The fields without a name. -/
def erase (fs : Fields α) (name : Text) : Fields α :=
  fs.filter (fun f => f.1 ≠ name)

/-- The names in order. -/
def names (fs : Fields α) : List Text :=
  fs.map Prod.fst

/-- No name occurs twice. -/
def Distinct (fs : Fields α) : Prop :=
  (names fs).Nodup

/-- Fields written one after the other: of a repeated name the last value
stands at the first place. -/
def ofPairs (ps : List (Text × α)) : Fields α :=
  ps.foldl (fun fs p => set fs p.1 p.2) []

@[simp] theorem get?_nil (name : Text) : get? ([] : Fields α) name = none := rfl

theorem get?_cons (k : Text) (v : α) (fs : Fields α) (name : Text) :
    get? ((k, v) :: fs) name = if k = name then some v else get? fs name := rfl

/-- **Reading after writing.** -/
theorem get?_set (fs : Fields α) (k : Text) (v : α) (name : Text) :
    get? (set fs k v) name = if k = name then some v else get? fs name := by
  induction fs with
  | nil => rfl
  | cons f fs ih =>
    obtain ⟨k', w⟩ := f
    by_cases h : k' = k
    · subst h
      by_cases hn : k' = name <;> simp [set, get?_cons, hn]
    · by_cases hn : k' = name
      · subst hn
        simp [set, get?_cons, h, Ne.symm h]
      · simp [set, get?_cons, h, hn, ih]

/-- Reading after erasing. -/
theorem get?_erase (fs : Fields α) (k name : Text) :
    get? (erase fs k) name = if k = name then none else get? fs name := by
  induction fs with
  | nil => simp [erase]
  | cons f fs ih =>
    obtain ⟨k', w⟩ := f
    by_cases h : k' = k
    · subst h
      by_cases hn : k' = name
      · simpa [erase, hn] using ih
      · simpa [erase, get?_cons, hn] using ih
    · by_cases hn : k' = name
      · subst hn
        simp [erase, get?_cons, h, Ne.symm h]
      · simp [erase, h, get?_cons, hn] at ih ⊢
        exact ih

/-- **A name that is there is one of the names.** -/
theorem has_iff (fs : Fields α) (name : Text) : has fs name = true ↔ name ∈ names fs := by
  induction fs with
  | nil => simp [has, names]
  | cons f fs ih =>
    obtain ⟨k, v⟩ := f
    by_cases h : k = name
    · simp [has, get?_cons, names, h]
    · simpa [has, get?_cons, names, h, Ne.symm h] using ih

/-- Writing keeps the names in their order, and puts a new one behind
them. -/
theorem names_set (fs : Fields α) (k : Text) (v : α) :
    names (set fs k v) = if k ∈ names fs then names fs else names fs ++ [k] := by
  induction fs with
  | nil => simp [set, names]
  | cons f fs ih =>
    obtain ⟨k', w⟩ := f
    by_cases h : k' = k
    · subst h
      simp [set, names]
    · simp only [names] at ih
      by_cases hk : k ∈ fs.map Prod.fst <;> simp [set, names, h, Ne.symm h, ih, hk]

/-- **Writing keeps the names distinct.** -/
theorem Distinct.set {fs : Fields α} (h : Distinct fs) (k : Text) (v : α) :
    Distinct (set fs k v) := by
  unfold Distinct at h ⊢
  rw [names_set]
  split
  · exact h
  · rename_i hk
    refine List.nodup_append.mpr ⟨h, by simp, fun a ha b hb => ?_⟩
    obtain rfl := List.mem_singleton.mp hb
    exact fun hab => hk (hab ▸ ha)

/-- Erasing keeps the names distinct. -/
theorem Distinct.erase {fs : Fields α} (h : Distinct fs) (k : Text) :
    Distinct (erase fs k) :=
  h.sublist (List.filter_sublist.map _)

end Fields
end Rollout
