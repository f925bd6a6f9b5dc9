import Mathlib.Data.List.TakeWhile
import Mathlib.Order.Bounds.Basic
import Rollout.Proofs.Text.Pieces
import Rollout.Text.TabStops

/-!
# Runs of rows

A column of a table is not the whole of it. It reaches over rows that follow each other and have
a cell there, and a row without one ends it, so that the same place further down belongs to a
column of its own. The rows a column reaches from one of them are a run, as long as it can be
(`TabStops.IsRun`), and the width of the column is that of its longest cell and the padding, and
no less than the least width (`TabStops.IsWidth`). There is one such run around a row, so there is
one width (`TabStops.IsWidth.unique`).

Alignment never looks for runs. It reads the longest cell off the rows above, nearest first, and
off those below, and stops in either direction at the first that has no cell; what lies between
the two stops is the run (`TabStops.isWidth_width`).
-/

namespace Rollout

/-! ## Rows -/

namespace Row

/-- **The line of a row**: its cells, each ended by a tab, and the rest. -/
def line (r : Row) : Text :=
  r.cells.flatMap (· ++ [.char '\t']) ++ r.rest

/-- A code point is in no cell of a row, nor in the rest. -/
structure Lacks (p : CodePoint) (r : Row) : Prop where
  cells : ∀ cell ∈ r.cells, p ∉ cell
  rest : p ∉ r.rest

/-- **A line is cut into the row that spells it.** -/
theorem line_ofLine (t : Text) : (ofLine t).line = t := by
  have hne := pieces_ne_nil (CodePoint.char '\t') t
  rw [line, ofLine, ofPieces, List.getLast?_eq_some_getLast hne, Option.getD_some,
    ← join_eq_flatMap_append hne, join_pieces]

/-- There is no tab within a cell, nor in the rest. -/
theorem lacks_tab_ofLine (t : Text) : (ofLine t).Lacks (.char '\t') := by
  have hne := pieces_ne_nil (CodePoint.char '\t') t
  refine ⟨fun cell hcell => notMem_of_mem_pieces (List.dropLast_subset _ hcell), ?_⟩
  rw [ofLine, ofPieces, List.getLast?_eq_some_getLast hne, Option.getD_some]
  exact notMem_of_mem_pieces (List.getLast_mem hne)

/-- The row of a line without tabs. -/
theorem ofLine_of_tab_notMem {t : Text} (htab : .char '\t' ∉ t) : ofLine t = ⟨[], t⟩ := by
  rw [ofLine, pieces_of_notMem htab]
  rfl

/-- What is not in a line is not in its row. -/
theorem lacks_of_notMem_line {p : CodePoint} {r : Row} (h : p ∉ r.line) : r.Lacks p := by
  obtain ⟨hcells, hrest⟩ := not_or.mp (mt List.mem_append.mpr h)
  refine ⟨fun cell hcell hp => hcells (List.mem_flatMap.mpr ⟨cell, hcell, ?_⟩), hrest⟩
  exact List.mem_append_left _ hp

/-- A cell is no longer than its line. -/
theorem length_le_line {r : Row} {cell : Text} (h : cell ∈ r.cells) :
    cell.length ≤ r.line.length := by
  have hended : (cell ++ [CodePoint.char '\t']).Sublist
      (r.cells.flatMap (· ++ [.char '\t'])) := by
    rw [List.flatMap_def]
    exact List.sublist_flatten_of_mem (List.mem_map_of_mem h)
  have hline : (r.cells.flatMap (· ++ [.char '\t'])).Sublist r.line :=
    List.sublist_append_left _ _
  exact ((List.sublist_append_left _ _).trans (hended.trans hline)).length_le

end Row

namespace TabStops

variable {stops : TabStops} {rows above below : List Row} {r r' : Row} {c : Nat} {cell : Text}

/-! ## Runs -/

/-- **The run of a column**: rows that follow each other and have a cell in column `c`, with none
before or behind them that could be added. -/
structure IsRun (c : Nat) (rows before run after : List Row) : Prop where
  eq : rows = before ++ run ++ after
  cell : ∀ r ∈ run, c < r.cells.length
  start : ∀ r ∈ before.getLast?, r.cells.length ≤ c
  stop : ∀ r ∈ after.head?, r.cells.length ≤ c

/-- **The width of column `c` at row `i`**: the longest cell over the run of the row with the
padding, and no less than the least width. -/
def IsWidth (stops : TabStops) (rows : List Row) (i c : Nat) (w : Int) : Prop :=
  ∃ before run after longest, IsRun c rows before run after
    ∧ before.length ≤ i ∧ i < before.length + run.length
    ∧ IsGreatest {n | ∃ r ∈ run, ∃ cell ∈ r.cells[c]?, n = cell.length} longest
    ∧ w = max stops.minWidth (stops.padding + longest)

section Unique

variable {before before' run run' after after' : List Row} {i : Nat}

/-- The rows between the ends of a run have a cell. -/
theorem IsRun.lt_length (h : IsRun c rows before run after) (hr : rows[i]? = some r)
    (hstart : before.length ≤ i) (hstop : i < before.length + run.length) :
    c < r.cells.length := by
  rw [h.eq, List.append_assoc, List.getElem?_append_right hstart,
    List.getElem?_append_left (by omega)] at hr
  exact h.cell r (List.mem_of_getElem? hr)

/-- **A run that holds a row starts before every other that does**: the row before the other has
no cell. -/
theorem IsRun.length_before_le (h : IsRun c rows before run after)
    (h' : IsRun c rows before' run' after') (hi : i < before.length + run.length)
    (hi' : before'.length ≤ i) : before'.length ≤ before.length := by
  by_contra hlt
  obtain rfl | ⟨front, last, rfl⟩ := List.eq_nil_or_concat before'
  · exact hlt (Nat.zero_le _)
  · rw [List.concat_eq_append, List.length_append, List.length_singleton] at hlt hi'
    have hlast : rows[front.length]? = some last := by
      rw [h'.eq]
      simp
    have hnone := h'.start last (by simp)
    exact Nat.not_lt.mpr hnone (h.lt_length hlast (by omega) (by omega))

/-- **A run that holds a row ends behind every other that does.** -/
theorem IsRun.length_run_le (h : IsRun c rows before run after)
    (h' : IsRun c rows before' run' after') (hi : before.length ≤ i)
    (hi' : i < before'.length + run'.length) :
    before.length + run.length ≤ before'.length + run'.length := by
  by_contra hlt
  cases after' with
  | nil =>
    have hlength := congrArg List.length (h.eq.symm.trans h'.eq)
    simp only [List.length_append, List.length_nil] at hlength
    omega
  | cons next rest =>
    have hnext : rows[before'.length + run'.length]? = some next := by
      rw [h'.eq]
      simp
    have hnone := h'.stop next (by simp)
    exact Nat.not_lt.mpr hnone (h.lt_length hnext (by omega) (by omega))

/-- **There is one run** that holds a row. -/
theorem IsRun.unique (h : IsRun c rows before run after) (h' : IsRun c rows before' run' after')
    (hi : before.length ≤ i) (hlt : i < before.length + run.length)
    (hi' : before'.length ≤ i) (hlt' : i < before'.length + run'.length) : run = run' := by
  have hbefore := Nat.le_antisymm (h'.length_before_le h hlt' hi) (h.length_before_le h' hlt hi')
  have hrun := Nat.le_antisymm (h.length_run_le h' hi hlt') (h'.length_run_le h hi' hlt)
  have heq := h.eq.symm.trans h'.eq
  rw [List.append_assoc, List.append_assoc] at heq
  obtain ⟨-, heq⟩ := List.append_inj heq hbefore
  exact (List.append_inj heq (by omega)).1

/-- **A column has one width** at a row. -/
theorem IsWidth.unique {w w' : Int} (h : stops.IsWidth rows i c w)
    (h' : stops.IsWidth rows i c w') : w = w' := by
  obtain ⟨before, run, after, longest, hrun, hi, hlt, hlongest, rfl⟩ := h
  obtain ⟨before', run', after', longest', hrun', hi', hlt', hlongest', rfl⟩ := h'
  obtain rfl := hrun.unique hrun' hi hlt hi' hlt'
  rw [hlongest.unique hlongest']

end Unique

/-- The row has a cell in the column. -/
def reaches (c : Nat) (r : Row) : Bool :=
  c < r.cells.length

theorem longest_cons_of_cell (hcell : r.cells[c]? = some cell) :
    longest c (r :: rows) = max cell.length (longest c rows) := by
  rw [longest, hcell]

theorem longest_cons_of_length_le (h : r.cells.length ≤ c) : longest c (r :: rows) = 0 := by
  rw [longest, List.getElem?_eq_none h]

/-- The longest cell is as long as every cell up to the first row without one. -/
theorem length_le_longest (hr : r ∈ rows.takeWhile (reaches c)) (hcell : r.cells[c]? = some cell) :
    cell.length ≤ longest c rows := by
  induction rows with
  | nil => cases hr
  | cons r' rows ih =>
    rw [List.takeWhile_cons] at hr
    split at hr
    · rename_i hreaches
      obtain ⟨cell', hcell'⟩ : ∃ cell', r'.cells[c]? = some cell' :=
        ⟨_, List.getElem?_eq_getElem (of_decide_eq_true hreaches)⟩
      rw [longest_cons_of_cell hcell']
      obtain rfl | hr := List.mem_cons.mp hr
      · rw [Option.some.inj (hcell.symm.trans hcell')]
        exact Nat.le_max_left _ _
      · exact Nat.le_trans (ih hr) (Nat.le_max_right _ _)
    · cases hr

/-- The longest cell is one of them, unless there is nothing to measure. -/
theorem exists_longest (h : 0 < longest c rows ∨ rows.takeWhile (reaches c) ≠ []) :
    ∃ r ∈ rows.takeWhile (reaches c), ∃ cell ∈ r.cells[c]?, longest c rows = cell.length := by
  induction rows with
  | nil => simp [longest] at h
  | cons r rows ih =>
    by_cases hreaches : c < r.cells.length
    · obtain ⟨cell, hcell⟩ : ∃ cell, r.cells[c]? = some cell :=
        ⟨_, List.getElem?_eq_getElem hreaches⟩
      have hr : reaches c r = true := decide_eq_true hreaches
      rw [longest_cons_of_cell hcell, List.takeWhile_cons_of_pos hr]
      obtain hlt | hle := Nat.lt_or_ge cell.length (longest c rows)
      · obtain ⟨r', hr', cell', hcell', hlength⟩ := ih (.inl (Nat.zero_lt_of_lt hlt))
        refine ⟨r', List.mem_cons_of_mem r hr', cell', hcell', ?_⟩
        rw [Nat.max_eq_right (Nat.le_of_lt hlt), hlength]
      · exact ⟨r, List.mem_cons_self, cell, hcell, Nat.max_eq_left hle⟩
    · have hr : ¬reaches c r = true := by simpa [reaches] using hreaches
      rw [longest_cons_of_length_le (Nat.not_lt.mp hreaches), List.takeWhile_cons_of_neg hr] at h
      simp at h

/-- A stop is a row without a cell. -/
theorem length_le_of_mem_head? (h : r ∈ (rows.dropWhile (reaches c)).head?) :
    r.cells.length ≤ c := by
  have hstop := List.head?_dropWhile_not (reaches c) rows
  rw [Option.mem_def.mp h] at hstop
  exact Nat.not_lt.mp (of_decide_eq_false hstop)

/-- **What lies between the stops is the run** of the row. -/
theorem isRun_around (hr : c < r.cells.length) :
    IsRun c (above.reverse ++ r :: below) (above.dropWhile (reaches c)).reverse
      ((above.takeWhile (reaches c)).reverse ++ r :: below.takeWhile (reaches c))
      (below.dropWhile (reaches c)) := by
  have hcell : ∀ rows : List Row, ∀ r ∈ rows.takeWhile (reaches c), c < r.cells.length :=
    fun rows r hr => of_decide_eq_true (show reaches c r = true from List.mem_takeWhile_imp hr)
  refine ⟨?_, ?_, fun r hr => ?_, fun r hr => length_le_of_mem_head? hr⟩
  · have habove : above.reverse
        = (above.dropWhile (reaches c)).reverse ++ (above.takeWhile (reaches c)).reverse := by
      rw [← List.reverse_append, List.takeWhile_append_dropWhile]
    have hbelow := List.takeWhile_append_dropWhile (p := reaches c) (l := below)
    simp only [habove, List.append_assoc, List.cons_append, hbelow]
  · refine List.forall_mem_append.mpr ⟨fun r hr => hcell above r (List.mem_reverse.mp hr), ?_⟩
    exact List.forall_mem_cons.mpr ⟨hr, hcell below⟩
  · rw [List.getLast?_reverse] at hr
    exact length_le_of_mem_head? hr

/-- **Alignment finds the width of the run.** -/
theorem isWidth_width (stops : TabStops) (above below : List Row) (hr : c < r.cells.length) :
    stops.IsWidth (above.reverse ++ r :: below) above.length c
      (stops.width above (r :: below) c) := by
  have hhere : (r :: below).takeWhile (reaches c) = r :: below.takeWhile (reaches c) :=
    List.takeWhile_cons_of_pos (decide_eq_true hr)
  have hlength : above.length
      = (above.takeWhile (reaches c)).length + (above.dropWhile (reaches c)).length := by
    rw [← List.length_append, List.takeWhile_append_dropWhile]
  refine ⟨_, _, _, max (longest c above) (longest c (r :: below)), isRun_around hr, ?_, ?_,
    ⟨?_, ?_⟩, ?_⟩
  · rw [List.length_reverse, hlength]
    exact Nat.le_add_left _ _
  · rw [List.length_append, List.length_reverse, List.length_reverse, List.length_cons]
    omega
  · obtain hlt | hle := Nat.lt_or_ge (longest c (r :: below)) (longest c above)
    · obtain ⟨r', hr', hcell⟩ := exists_longest (.inl (Nat.zero_lt_of_lt hlt))
      rw [Nat.max_eq_left (Nat.le_of_lt hlt)]
      exact ⟨r', List.mem_append_left _ (List.mem_reverse.mpr hr'), hcell⟩
    · have hne : (r :: below).takeWhile (reaches c) ≠ [] := hhere ▸ List.cons_ne_nil _ _
      obtain ⟨r', hr', hcell⟩ := exists_longest (.inr hne)
      rw [Nat.max_eq_right hle]
      exact ⟨r', List.mem_append_right _ (hhere ▸ hr'), hcell⟩
  · rintro n ⟨r', hr', cell, hcell, rfl⟩
    obtain hr' | hr' := List.mem_append.mp hr'
    · exact Nat.le_trans (length_le_longest (List.mem_reverse.mp hr') hcell) (Nat.le_max_left _ _)
    · exact Nat.le_trans (length_le_longest (hhere ▸ hr') hcell) (Nat.le_max_right _ _)
  · rw [width]
    omega

/-- **Neighbours that both have a cell find the same width.** -/
theorem width_cons (hr : c < r.cells.length) (hr' : c < r'.cells.length) :
    stops.width (r :: above) (r' :: below) c = stops.width above (r :: r' :: below) c := by
  have hcell := List.getElem?_eq_getElem hr
  have hcell' := List.getElem?_eq_getElem hr'
  simp only [width, longest_cons_of_cell hcell, longest_cons_of_cell hcell']
  omega

/-- A cell and the padding fit into the column. -/
theorem length_add_padding_le_width (stops : TabStops) (above below : List Row)
    (hcell : r.cells[c]? = some cell) :
    cell.length + stops.padding ≤ stops.width above (r :: below) c := by
  rw [width, longest_cons_of_cell hcell]
  omega

/-- No cell is longer than its column is wide. -/
theorem length_le_width (hpadding : 0 ≤ stops.padding) (above below : List Row)
    (hcell : r.cells[c]? = some cell) :
    (cell.length : Int) ≤ stops.width above (r :: below) c := by
  have hfits := length_add_padding_le_width stops above below hcell
  omega

/-- **No column is wider than the longest line wants it to be.** -/
theorem IsWidth.le {i n : Nat} {w : Int} (h : stops.IsWidth rows i c w)
    (hlines : ∀ r ∈ rows, r.line.length ≤ n) : w ≤ max stops.minWidth (stops.padding + n) := by
  obtain ⟨before, run, after, longest, hrun, -, -, ⟨⟨r, hr, cell, hcell, rfl⟩, -⟩, rfl⟩ := h
  have hmem : r ∈ rows := by
    rw [hrun.eq]
    exact List.mem_append_left _ (List.mem_append_right _ hr)
  have hle := Nat.le_trans (Row.length_le_line (List.mem_of_getElem? hcell)) (hlines r hmem)
  omega

end TabStops
end Rollout
