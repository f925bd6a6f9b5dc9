import Rollout.Proofs.Text.Columns

/-!
# Blocks of a table

A line without tabs has a cell in no column, so it ends them all: no longest cell is looked for
beyond it, neither from above (`TabStops.longest_append`) nor from below, where the rows that are
given nearest first end at it in the same way. What stands over such a line and what stands under
it are therefore aligned as if each were alone (`TabStops.alignedRows_append`), and the line itself
stays as it is.

Aligning leaves no tabs, whatever was aligned, so that a text is aligned only once. Of what cells
are filled with, this is all that has to be asked for: that it is no tab. That it is no line feed
either is not needed, since lines are put together and never cut again.
-/

namespace Rollout
namespace TabStops

variable {stops : TabStops} {rows : List Row} {r : Row} {c : Nat}

/-! ## Rows without cells -/

/-- **The longest cell is found before a row without cells.** -/
theorem longest_append (hr : r.cells = []) (rows far : List Row) :
    longest c (rows ++ r :: far) = longest c rows := by
  induction rows with
  | nil => exact longest_cons_of_length_le (by rw [hr]; exact Nat.zero_le c)
  | cons r' rows ih => rw [List.cons_append, longest, longest, ih]

/-- Nothing above a row without cells matters to the rows below it. -/
theorem alignedRows_above (hr : r.cells = []) (above far rows : List Row) :
    stops.alignedRows (above ++ r :: far) rows = stops.alignedRows above rows
      ∧ stops.widths (above ++ r :: far) rows = stops.widths above rows := by
  induction rows generalizing above with
  | nil => exact ⟨rfl, rfl⟩
  | cons r' below ih =>
    have hwidth : stops.width (above ++ r :: far) (r' :: below)
        = stops.width above (r' :: below) := by
      funext c
      rw [width, width, longest_append hr]
    obtain ⟨haligned, hwidths⟩ := ih (r' :: above)
    rw [List.cons_append] at haligned hwidths
    exact ⟨by rw [alignedRows, alignedRows, hwidth, haligned],
      by rw [widths, widths, hwidth, hwidths]⟩

/-- **Rows are aligned apart from those behind a row without cells.** -/
theorem alignedRows_append (hr : r.cells = []) (above rows below : List Row) :
    stops.alignedRows above (rows ++ r :: below)
        = stops.alignedRows above rows ++ r.line :: stops.alignedRows [] below
      ∧ stops.widths above (rows ++ r :: below)
        = stops.widths above rows ++ stops.widths [] below := by
  induction rows generalizing above with
  | nil =>
    obtain ⟨haligned, hwidths⟩ := @alignedRows_above stops r hr [] above below
    rw [List.nil_append] at haligned hwidths ⊢
    refine ⟨?_, ?_⟩
    · rw [alignedRows, alignedRows, haligned, Row.line, hr]
      rfl
    · rw [widths, widths, hwidths, hr]
      rfl
  | cons r' rows ih =>
    have hwidth : stops.width above (r' :: (rows ++ r :: below))
        = stops.width above (r' :: rows) := by
      funext c
      rw [width, width, ← List.cons_append, longest_append hr]
    obtain ⟨haligned, hwidths⟩ := ih (r' :: above)
    refine ⟨?_, ?_⟩
    · rw [List.cons_append, alignedRows, alignedRows, hwidth, haligned, List.cons_append]
    · rw [List.cons_append, widths, widths, hwidth, hwidths, List.append_assoc]

/-! ## Lines without tabs -/

/-- The rows of two texts with a line without tabs between them. -/
theorem rowsOf_append {s : Text} (htab : .char '\t' ∉ s) (hfeed : .char '\n' ∉ s) (a b : Text) :
    rowsOf (a ++ .char '\n' :: (s ++ .char '\n' :: b)) = rowsOf a ++ ⟨[], s⟩ :: rowsOf b := by
  rw [rowsOf, pieces_append_cons, pieces_append hfeed, List.map_append, List.map_cons,
    Row.ofLine_of_tab_notMem htab, rowsOf, rowsOf]

theorem align_append {s : Text} (htab : .char '\t' ∉ s) (hfeed : .char '\n' ∉ s) (a b : Text) :
    stops.align (a ++ .char '\n' :: (s ++ .char '\n' :: b))
      = stops.align a ++ .char '\n' :: (s ++ .char '\n' :: stops.align b) := by
  have hone : ∀ text, stops.alignedRows [] (rowsOf text) ≠ [] :=
    fun text => alignedRows_ne_nil [] (rowsOf_ne_nil text)
  calc stops.align (a ++ .char '\n' :: (s ++ .char '\n' :: b))
    _ = join (.char '\n')
        (stops.alignedRows [] (rowsOf a) ++ s :: stops.alignedRows [] (rowsOf b)) := by
      have hrow : (⟨[], s⟩ : Row).cells = [] := rfl
      rw [align, rowsOf_append htab hfeed, (alignedRows_append hrow [] _ _).1]
      rfl
    _ = stops.align a ++ .char '\n' :: join (.char '\n') (s :: stops.alignedRows [] (rowsOf b)) :=
      join_append (hone a) (List.cons_ne_nil _ _)
    _ = stops.align a ++ .char '\n' :: (s ++ .char '\n' :: stops.align b) :=
      congrArg (stops.align a ++ .char '\n' :: ·)
        (join_append (List.cons_ne_nil s []) (hone b))

/-- **Texts on both sides of a line without tabs** are aligned as they are asked for if both are. -/
theorem alignWith?_append {s : Text} (htab : .char '\t' ∉ s) (hfeed : .char '\n' ∉ s)
    (stops : TabStops) (a b : Text) :
    alignWith? (.whole stops.minWidth) (.whole stops.padding) [stops.fill]
        (a ++ .char '\n' :: (s ++ .char '\n' :: b))
      = (do
        let above ← alignWith? (.whole stops.minWidth) (.whole stops.padding) [stops.fill] a
        let below ← alignWith? (.whole stops.minWidth) (.whole stops.padding) [stops.fill] b
        return above ++ .char '\n' :: (s ++ .char '\n' :: below)) := by
  have hrow : (⟨[], s⟩ : Row).cells = [] := rfl
  simp only [alignWith?_whole, rowsOf_append htab hfeed, (alignedRows_append hrow [] _ _).2,
    List.all_append, align_append htab hfeed]
  cases (stops.widths [] (rowsOf a)).all isWidth <;>
    cases (stops.widths [] (rowsOf b)).all isWidth <;> rfl

/-! ## Tables that are aligned again -/

theorem fill_of_stopsFor? {minWidth padding : Extent} {p : CodePoint}
    (h : stopsFor? minWidth padding [p] rows = some stops) : stops.fill = p := by
  cases minWidth <;> cases padding
  case broken.broken => cases h
  all_goals
    obtain ⟨-, h⟩ := Option.ite_none_right_eq_some.mp h
    exact Option.some.inj h ▸ rfl

/-- No tab is left, whatever the widths that were asked for. -/
theorem tab_notMem_of_alignWith? {minWidth padding : Extent} {p : CodePoint}
    (hp : p ≠ .char '\t') {text aligned : Text}
    (h : alignWith? minWidth padding [p] text = some aligned) : .char '\t' ∉ aligned := by
  rw [alignWith?] at h
  split at h
  · obtain ⟨stops, hstops, rfl⟩ := Option.map_eq_some_iff.mp h
    exact tab_notMem_align (fill_of_stopsFor? hstops ▸ hp) text
  · rename_i htab
    obtain rfl := Option.some.inj h
    simpa using htab

/-- **A line without tabs separates blocks.** With such a line between two texts, each is aligned
as it is alone, and neither can be aligned without the other. What has been aligned stays as it
is when it is aligned again. -/
theorem align_separates (hfill : stops.fill ≠ .char '\t') {s : Text} (htab : .char '\t' ∉ s)
    (hfeed : .char '\n' ∉ s) (a b : Text) :
    stops.align (a ++ .char '\n' :: (s ++ .char '\n' :: b))
        = stops.align a ++ .char '\n' :: (s ++ .char '\n' :: stops.align b)
      ∧ stops.align (stops.align a) = stops.align a
      ∧ alignWith? (.whole stops.minWidth) (.whole stops.padding) [stops.fill]
          (a ++ .char '\n' :: (s ++ .char '\n' :: b))
        = (do
          let above ← alignWith? (.whole stops.minWidth) (.whole stops.padding) [stops.fill] a
          let below ← alignWith? (.whole stops.minWidth) (.whole stops.padding) [stops.fill] b
          return above ++ .char '\n' :: (s ++ .char '\n' :: below))
      ∧ ∀ minWidth padding aligned, alignWith? minWidth padding [stops.fill] a = some aligned →
        alignWith? minWidth padding [stops.fill] aligned = some aligned := by
  refine ⟨align_append htab hfeed a b, align_of_tab_notMem (tab_notMem_align hfill a),
    alignWith?_append htab hfeed stops a b, fun minWidth padding aligned haligned => ?_⟩
  have hnone : ¬aligned.contains (.char '\t') = true := by
    simpa using tab_notMem_of_alignWith? hfill haligned
  rw [alignWith?, if_neg hnone]

/-- A blank line between two tables of the same column: `x` is not as far from its cell as `long`
would have it. -/
theorem align_separates_blank_line :
    align ⟨0, 2, ' '⟩ "a\tb\nlong\tc\n\nx\ty" = "a     b\nlong  c\n\nx  y"
      ∧ align ⟨0, 2, ' '⟩ (align ⟨0, 2, ' '⟩ "a\tb\nlong\tc") = "a     b\nlong  c" := by
  obtain ⟨hblocks, hagain, -, -⟩ :=
    @align_separates ⟨0, 2, ' '⟩ (by decide) "" List.not_mem_nil List.not_mem_nil
      "a\tb\nlong\tc" "x\ty"
  exact ⟨hblocks.trans (by decide +kernel), hagain.trans (by decide +kernel)⟩

end TabStops
end Rollout
