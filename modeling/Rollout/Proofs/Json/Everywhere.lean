import Rollout.Proofs.Fields
import Rollout.Json.Basic

/-!
# What holds at every depth

Most of what is asked of a document is asked of every part of it: that no name
is written twice, that no number is a NaN, that no name starts with a certain
character. Such a property is a test of one value, and `Json.everywhere` runs it
on the document and on everything in it.

The recursor of documents speaks of lists of items and of fields beside the
documents themselves. `Json.induction` is the principle that proofs want, with
the items of a list and the values of an object as the smaller documents.
-/

namespace Rollout
namespace Json

/-- **Induction on documents**: a list by its items, an object by its values. -/
@[elab_as_elim]
theorem induction {motive : Json → Prop} (null : motive .null) (bool : ∀ b, motive (.bool b))
    (int : ∀ i, motive (.int i)) (float : ∀ x, motive (.float x)) (str : ∀ s, motive (.str s))
    (arr : ∀ items, (∀ x ∈ items, motive x) → motive (.arr items))
    (obj : ∀ fs, (∀ f ∈ fs, motive f.2) → motive (.obj fs)) (j : Json) : motive j := by
  refine @Json.rec motive (fun items => ∀ x ∈ items, motive x) (fun fs => ∀ f ∈ fs, motive f.2)
    (fun f => motive f.2) null bool int float str arr obj ?_ ?_ ?_ ?_ ?_ j
  · exact fun x hx => absurd hx (List.not_mem_nil)
  · exact fun x xs hx hxs => List.forall_mem_cons.mpr ⟨hx, hxs⟩
  · exact fun f hf => absurd hf (List.not_mem_nil)
  · exact fun f fs hf hfs => List.forall_mem_cons.mpr ⟨hf, hfs⟩
  · exact fun _ v hv => hv

mutual

/-- **The test succeeds on the document and on everything in it.** -/
def everywhere (p : Json → Bool) : Json → Bool
  | arr items => p (arr items) && everyItem p items
  | obj fields => p (obj fields) && everyField p fields
  | null => p null
  | bool b => p (bool b)
  | int i => p (int i)
  | float x => p (float x)
  | str s => p (str s)

/-- The test succeeds everywhere in the items of a list. -/
def everyItem (p : Json → Bool) : List Json → Bool
  | [] => true
  | x :: xs => everywhere p x && everyItem p xs

/-- The test succeeds everywhere in the values of an object. -/
def everyField (p : Json → Bool) : List (Text × Json) → Bool
  | [] => true
  | (_, v) :: fs => everywhere p v && everyField p fs

end

variable {p q : Json → Bool}

theorem everyItem_iff {items : List Json} :
    everyItem p items = true ↔ ∀ x ∈ items, everywhere p x = true := by
  induction items with
  | nil => simp [everyItem]
  | cons x xs ih => rw [everyItem, Bool.and_eq_true, ih, List.forall_mem_cons]

theorem everyField_iff {fs : List (Text × Json)} :
    everyField p fs = true ↔ ∀ f ∈ fs, everywhere p f.2 = true := by
  induction fs with
  | nil => simp [everyField]
  | cons f fs ih =>
    obtain ⟨k, v⟩ := f
    rw [everyField, Bool.and_eq_true, ih, List.forall_mem_cons]

@[simp] theorem everywhere_arr_iff {items : List Json} :
    everywhere p (arr items) = true
      ↔ p (arr items) = true ∧ ∀ x ∈ items, everywhere p x = true := by
  rw [everywhere, Bool.and_eq_true, everyItem_iff]

@[simp] theorem everywhere_obj_iff {fs : List (Text × Json)} :
    everywhere p (obj fs) = true
      ↔ p (obj fs) = true ∧ ∀ f ∈ fs, everywhere p f.2 = true := by
  rw [everywhere, Bool.and_eq_true, everyField_iff]

/-- What holds everywhere holds of the document itself. -/
theorem of_everywhere {j : Json} (h : everywhere p j = true) : p j = true := by
  cases j with
  | arr items => exact (everywhere_arr_iff.mp h).1
  | obj fs => exact (everywhere_obj_iff.mp h).1
  | _ => exact h

/-- What is looked up in an object is a part of it. -/
theorem everywhere_of_get? {fs : Fields Json} {k : Text} {v : Json}
    (h : everywhere p (obj fs) = true) (hv : Fields.get? fs k = some v) :
    everywhere p v = true :=
  (everywhere_obj_iff.mp h).2 _ (Fields.mem_of_get? hv)

/-- **A weaker test succeeds wherever a stronger one does.** -/
theorem everywhere_mono (hpq : ∀ j, p j = true → q j = true) {j : Json}
    (h : everywhere p j = true) : everywhere q j = true := by
  induction j using Json.induction with
  | arr items ih =>
    obtain ⟨hp, hs⟩ := everywhere_arr_iff.mp h
    exact everywhere_arr_iff.mpr ⟨hpq _ hp, fun x hx => ih x hx (hs x hx)⟩
  | obj fs ih =>
    obtain ⟨hp, hs⟩ := everywhere_obj_iff.mp h
    exact everywhere_obj_iff.mpr ⟨hpq _ hp, fun f hf => ih f hf (hs f hf)⟩
  | _ => exact hpq _ h

/-- **Two tests succeed everywhere** if each of them does. -/
theorem everywhere_and_iff {j : Json} :
    everywhere (fun j => p j && q j) j = true
      ↔ everywhere p j = true ∧ everywhere q j = true := by
  refine ⟨fun h => ⟨everywhere_mono (fun j hj => (Bool.and_eq_true_iff.mp hj).1) h,
    everywhere_mono (fun j hj => (Bool.and_eq_true_iff.mp hj).2) h⟩, fun h => ?_⟩
  have both := fun {j} (hp : p j = true) (hq : q j = true) => Bool.and_eq_true_iff.mpr ⟨hp, hq⟩
  induction j using Json.induction with
  | arr items ih =>
    obtain ⟨hp, hps⟩ := everywhere_arr_iff.mp h.1
    obtain ⟨hq, hqs⟩ := everywhere_arr_iff.mp h.2
    exact everywhere_arr_iff.mpr ⟨both hp hq, fun x hx => ih x hx ⟨hps x hx, hqs x hx⟩⟩
  | obj fs ih =>
    obtain ⟨hp, hps⟩ := everywhere_obj_iff.mp h.1
    obtain ⟨hq, hqs⟩ := everywhere_obj_iff.mp h.2
    exact everywhere_obj_iff.mpr ⟨both hp hq, fun f hf => ih f hf ⟨hps f hf, hqs f hf⟩⟩
  | _ => exact both h.1 h.2

end Json
end Rollout
