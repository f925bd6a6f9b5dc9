import Rollout.Json.Encoding
import Rollout.Json.Reread
import Rollout.Proofs.Json.Everywhere

/-!
# Documents that travel

Not every document can be written and read back. A number has to be one of its
format, an integer must not have more digits than are read, a text must have no
halves that would be joined, an object must not have a name twice, and containers
must not be nested too deep. A document that keeps to this (`Json.Portable`) stays
as it is when it is read again (`Json.Portable.reread_eq`).

Whatever the document, its bytes are printable ASCII (`Json.ascii_written`), and
such bytes are the text of their characters (`Json.decode_ascii`).
-/

namespace Rollout

namespace Json

/-! ## What is asked of a document -/

/-- A part that is read as it was written. -/
def isPortablePart : Json → Bool
  | int i => decide (Binary64.decimalLength i.natAbs ≤ maxDigits)
  | float x => decide x.Canonical
  | str s => decide (s.joined = s)
  | obj fs => decide (Fields.names fs).Nodup && fs.all (fun f => decide (f.1.joined = f.1))
  | _ => true

/-- **A document that travels**: it is read as it was written. -/
structure Portable (j : Json) : Prop where
  parts : everywhere isPortablePart j = true
  shallow : j.depth ≤ maxDepth

theorem depthOfItems_le_iff {items : List Json} {d : Nat} :
    depthOfItems items ≤ d ↔ ∀ x ∈ items, depth x ≤ d := by
  induction items with
  | nil => simp [depthOfItems]
  | cons x xs ih => rw [depthOfItems, Nat.max_le, ih, List.forall_mem_cons]

theorem depthOfFields_le_iff {fs : List (Text × Json)} {d : Nat} :
    depthOfFields fs ≤ d ↔ ∀ f ∈ fs, depth f.2 ≤ d := by
  induction fs with
  | nil => simp [depthOfFields]
  | cons f fs ih =>
    obtain ⟨k, v⟩ := f
    rw [depthOfFields, Nat.max_le, ih, List.forall_mem_cons]

theorem isPortablePart_obj_iff {fs : Fields Json} :
    isPortablePart (obj fs) = true ↔ Fields.Distinct fs ∧ ∀ f ∈ fs, f.1.joined = f.1 := by
  rw [isPortablePart, Bool.and_eq_true, decide_eq_true_eq, List.all_eq_true]
  simp only [decide_eq_true_eq]
  rfl

/-! ## Reading again -/

theorem rereadItems_eq_map (items : List Json) : rereadItems items = items.map reread := by
  induction items with
  | nil => rfl
  | cons x xs ih => rw [rereadItems, ih, List.map_cons]

theorem rereadFields_eq_map (fs : List (Text × Json)) :
    rereadFields fs = fs.map (fun f => (f.1.joined, reread f.2)) := by
  induction fs with
  | nil => rfl
  | cons f fs ih =>
    obtain ⟨k, v⟩ := f
    rw [rereadFields, ih, List.map_cons]

/-- Parts that are read as they were written make a document that is. -/
theorem reread_eq_of_everywhere {j : Json} (h : everywhere isPortablePart j = true) :
    j.reread = j := by
  induction j using Json.induction with
  | str s => rw [reread, of_decide_eq_true h]
  | arr items ih =>
    have hs := (everywhere_arr_iff.mp h).2
    rw [reread, rereadItems_eq_map, List.map_congr_left fun x hx => ih x hx (hs x hx),
      List.map_id']
  | obj fs ih =>
    obtain ⟨hp, hs⟩ := everywhere_obj_iff.mp h
    obtain ⟨hd, hj⟩ := isPortablePart_obj_iff.mp hp
    have hsame : fs.map (fun f => (f.1.joined, reread f.2)) = fs := by
      refine (List.map_congr_left fun f hf => ?_).trans (List.map_id fs)
      rw [hj f hf, ih f hf (hs f hf)]
      rfl
    rw [reread, rereadFields_eq_map, hsame, Fields.ofPairs_eq hd]
  | _ => rfl

/-- **A document that travels stays as it is when it is read again.** -/
theorem Portable.reread_eq {j : Json} (h : Portable j) : j.reread = j :=
  reread_eq_of_everywhere h.parts

end Json
end Rollout
