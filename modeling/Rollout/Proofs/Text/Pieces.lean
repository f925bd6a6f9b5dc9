import Mathlib.Data.List.Basic
import Rollout.Text.Lines

/-!
# Pieces put together

Pieces that are put together can be seen in several ways: as the first with the others behind
their separators (`join_cons`), or as the last with the others before theirs
(`join_eq_flatMap_append`). Whatever is in the text is in a piece or is a separator
(`mem_of_mem_join`).
-/

namespace Rollout

variable {α : Type} {sep c : α} {ps qs : List (List α)}

theorem intercalate_eq_join (sep : α) (ps : List (List α)) :
    [sep].intercalate ps = join sep ps := by
  induction ps with
  | nil => rfl
  | cons p ps ih =>
    cases ps with
    | nil => exact List.intercalate_singleton
    | cons q qs =>
      rw [List.intercalate_cons_cons, ih, join, List.append_assoc, List.singleton_append]

/-- What is in pieces put together is in one of them, or between them. -/
theorem mem_of_mem_join (h : c ∈ join sep ps) : c = sep ∨ ∃ p ∈ ps, c ∈ p := by
  induction ps with
  | nil => cases h
  | cons p ps ih =>
    cases ps with
    | nil => exact .inr ⟨p, List.mem_cons_self, h⟩
    | cons q qs =>
      obtain hp | h := List.mem_append.mp h
      · exact .inr ⟨p, List.mem_cons_self, hp⟩
      · obtain rfl | h := List.mem_cons.mp h
        · exact .inl rfl
        · exact (ih h).imp_right fun ⟨r, hr, hc⟩ => ⟨r, List.mem_cons_of_mem _ hr, hc⟩

/-- What is in a piece is in the text. -/
theorem mem_join_of_mem {p : List α} (hp : p ∈ ps) (hc : c ∈ p) : c ∈ join sep ps := by
  induction ps with
  | nil => cases hp
  | cons q ps ih =>
    cases ps with
    | nil => exact List.mem_singleton.mp hp ▸ hc
    | cons r rs =>
      obtain rfl | hp := List.mem_cons.mp hp
      · exact List.mem_append_left _ hc
      · exact List.mem_append_right _ (List.mem_cons_of_mem _ (ih hp))

/-- The first piece, and the others behind their separators. -/
theorem join_cons (sep : α) (p : List α) (ps : List (List α)) :
    join sep (p :: ps) = p ++ ps.flatMap fun q => sep :: q := by
  induction ps generalizing p with
  | nil => exact (List.append_nil p).symm
  | cons q ps ih => rw [join, ih, List.flatMap_cons, List.cons_append]

/-- The last piece, and the others before their separators. -/
theorem join_eq_flatMap_append (hne : ps ≠ []) :
    join sep ps = ps.dropLast.flatMap (· ++ [sep]) ++ ps.getLast hne := by
  induction ps with
  | nil => exact absurd rfl hne
  | cons p ps ih =>
    cases ps with
    | nil => rfl
    | cons q qs =>
      rw [join, ih (List.cons_ne_nil q qs), List.dropLast_cons_cons, List.flatMap_cons,
        List.getLast_cons (List.cons_ne_nil q qs)]
      simp only [List.append_assoc, List.cons_append, List.nil_append]

/-- **Pieces of two texts** are put together as the texts are. -/
theorem join_append (hps : ps ≠ []) (hqs : qs ≠ []) :
    join sep (ps ++ qs) = join sep ps ++ sep :: join sep qs := by
  obtain ⟨p, ps, rfl⟩ := List.exists_cons_of_ne_nil hps
  obtain ⟨q, qs, rfl⟩ := List.exists_cons_of_ne_nil hqs
  rw [List.cons_append, join_cons, join_cons, join_cons, List.flatMap_append, List.flatMap_cons]
  simp only [List.append_assoc, List.cons_append]

/-- **The pieces of two texts** with a separator between them are those of both. -/
theorem pieces_append_cons [DecidableEq α] (sep : α) (a b : List α) :
    pieces sep (a ++ sep :: b) = pieces sep a ++ pieces sep b := by
  have hne := pieces_ne_nil sep a
  have hne' := pieces_ne_nil sep b
  have hclean : ∀ p ∈ pieces sep a ++ pieces sep b, sep ∉ p :=
    List.forall_mem_append.mpr ⟨fun _ => notMem_of_mem_pieces, fun _ => notMem_of_mem_pieces⟩
  rw [← pieces_join (List.append_ne_nil_of_left_ne_nil hne _) hclean, join_append hne hne',
    join_pieces, join_pieces]

/-- Every separator makes one piece more. -/
theorem length_pieces [DecidableEq α] (sep : α) (cs : List α) :
    (pieces sep cs).length = cs.count sep + 1 := by
  induction cs with
  | nil => rfl
  | cons c cs ih =>
    rw [pieces]
    split
    · rename_i h
      rw [List.length_cons, ih, h, List.count_cons_self]
    · rename_i h
      rw [List.count_cons_of_ne h, ← ih]
      cases hcs : pieces sep cs with
      | nil => exact absurd hcs (pieces_ne_nil sep cs)
      | cons p ps => rfl

/-- **Pieces that are each ended by a separator** are followed by one that is empty. -/
theorem pieces_flatMap [DecidableEq α] (h : ∀ p ∈ ps, sep ∉ p) :
    pieces sep (ps.flatMap (· ++ [sep])) = ps ++ [[]] := by
  induction ps with
  | nil => rfl
  | cons p ps ih =>
    obtain ⟨hp, hps⟩ := List.forall_mem_cons.mp h
    rw [List.flatMap_cons, List.append_assoc, List.singleton_append, pieces_append hp, ih hps,
      List.cons_append]

theorem cutLast?_eq_none_iff [DecidableEq α] {cs : List α} :
    cutLast? sep cs = none ↔ sep ∉ cs := by
  refine ⟨fun h => ?_, cutLast?_eq_none⟩
  induction cs with
  | nil => exact List.not_mem_nil
  | cons c cs ih =>
    rw [cutLast?] at h
    split at h
    · cases h
    · rename_i hlast
      split at h
      · cases h
      · rename_i hc
        exact List.not_mem_cons_of_ne_of_not_mem (Ne.symm hc) (ih hlast)

/-- **Where a text is cut last** there is a separator, and none behind it. -/
theorem cutLast?_eq_some_iff [DecidableEq α] {cs a b : List α} :
    cutLast? sep cs = some (a, b) ↔ cs = a ++ sep :: b ∧ sep ∉ b := by
  refine ⟨fun h => ?_, fun ⟨hcs, hb⟩ => hcs ▸ cutLast?_append a hb⟩
  induction cs generalizing a with
  | nil => cases h
  | cons c cs ih =>
    rw [cutLast?] at h
    split at h
    · rename_i hlast
      cases h
      obtain ⟨rfl, hb⟩ := ih hlast
      exact ⟨rfl, hb⟩
    · rename_i hlast
      split at h
      · rename_i hc
        cases h
        exact ⟨congrArg (· :: b) hc, cutLast?_eq_none_iff.mp hlast⟩
      · cases h

/-- **What a text is cut into after a change** that makes no separators and spares them is what it
is cut into before. -/
theorem cut?_map [DecidableEq α] {f : α → α} (hf : ∀ c, f c = sep ↔ c = sep) (cs : List α) :
    cut? sep (cs.map f) = (cut? sep cs).map (Prod.map (List.map f) (List.map f)) := by
  induction cs with
  | nil => rfl
  | cons c cs ih =>
    rw [List.map_cons, cut?, cut?, ih]
    by_cases hc : c = sep
    · rw [if_pos hc, if_pos ((hf c).mpr hc)]
      rfl
    · rw [if_neg hc, if_neg (mt (hf c).mp hc), Option.map_map, Option.map_map]
      rfl

theorem cutLast?_map [DecidableEq α] {f : α → α} (hf : ∀ c, f c = sep ↔ c = sep) (cs : List α) :
    cutLast? sep (cs.map f) = (cutLast? sep cs).map (Prod.map (List.map f) (List.map f)) := by
  induction cs with
  | nil => rfl
  | cons c cs ih =>
    rw [List.map_cons, cutLast?, cutLast?, ih]
    cases cutLast? sep cs with
    | some p => rfl
    | none =>
      by_cases hc : c = sep
      · simp [hc, (hf sep).mpr rfl]
      · simp [hc, hf]

end Rollout
