import Rollout.Proofs.Text.Runs

/-!
# Columns of a table

Alignment fills every cell to the width of its column (`TabStops.isElastic_filledRows`), and leaves
what follows the last of a row as it is (`TabStops.alignedRows_eq`).

Neighbours that both have a cell in a column find the same width for it (`TabStops.width_cons`).
Since a row with a cell has one in every column before it as well, what follows the cells starts
at the same place in both (`TabStops.length_take_eq`).
-/

namespace Rollout
namespace TabStops

variable {stops : TabStops} {rows above below : List Row} {r r' : Row} {c : Nat} {cell : Text}

/-! ## Rows filled -/

/-- The rows of a text spell its lines. -/
theorem map_line_rowsOf (text : Text) :
    (rowsOf text).map Row.line = pieces (.char '\n') text := by
  rw [rowsOf, List.map_map]
  exact (List.map_congr_left fun t _ => Row.line_ofLine t).trans (List.map_id _)

theorem lacks_tab_of_mem_rowsOf {text : Text} (hr : r ∈ rowsOf text) :
    r.Lacks (.char '\t') := by
  obtain ⟨t, -, rfl⟩ := List.mem_map.mp hr
  exact Row.lacks_tab_ofLine t

theorem lacks_feed_of_mem_rowsOf {text : Text} (hr : r ∈ rowsOf text) :
    r.Lacks (.char '\n') := by
  refine Row.lacks_of_notMem_line (@notMem_of_mem_pieces _ _ _ text _ ?_)
  exact map_line_rowsOf text ▸ List.mem_map_of_mem hr

/-- The cells of a row, each filled to its width. -/
def filledRow (stops : TabStops) (width : Nat → Int) (cells : List Text) : List Text :=
  cells.mapIdx fun c cell => stops.filled (width c) cell

/-- **The filled cells of all rows**, those above them given nearest first. -/
def filledRows (stops : TabStops) : List Row → List Row → List (List Text)
  | _, [] => []
  | above, r :: below =>
    stops.filledRow (stops.width above (r :: below)) r.cells :: filledRows stops (r :: above) below

/-- The text of a row's filled cells from a column on. -/
theorem filledCells_eq (width : Nat → Int) (c : Nat) (cells : List Text) :
    stops.filledCells width c cells = (stops.filledRow (fun k => width (c + k)) cells).flatten := by
  induction cells generalizing c with
  | nil => rfl
  | cons cell cells ih =>
    rw [filledCells, ih, filledRow, filledRow, List.mapIdx_cons, List.flatten_cons]
    simp only [Nat.add_zero, Nat.add_assoc, Nat.add_comm 1]

/-- **An aligned line** is the filled cells of its row and the rest. -/
theorem alignedRows_eq (above rows : List Row) :
    stops.alignedRows above rows
      = List.zipWith (fun cells r => cells.flatten ++ r.rest)
        (stops.filledRows above rows) rows := by
  induction rows generalizing above with
  | nil => rfl
  | cons r below ih =>
    rw [alignedRows, filledRows, List.zipWith_cons_cons, ih, filledCells_eq]
    simp only [Nat.zero_add]

/-- The filled cells of one row. -/
theorem getElem?_filledRows (above before : List Row) (r : Row) (after : List Row) :
    (stops.filledRows above (before ++ r :: after))[before.length]?
      = some (stops.filledRow (stops.width (before.reverse ++ above) (r :: after)) r.cells) := by
  induction before generalizing above with
  | nil => rfl
  | cons r' before ih =>
    rw [List.cons_append, filledRows, List.length_cons, List.getElem?_cons_succ, ih]
    simp only [List.reverse_cons, List.append_assoc, List.singleton_append]

theorem map_length_filledRows (stops : TabStops) (above rows : List Row) :
    (stops.filledRows above rows).map List.length = rows.map fun r => r.cells.length := by
  induction rows generalizing above with
  | nil => rfl
  | cons r below ih =>
    rw [filledRows, List.map_cons, List.map_cons, ih, filledRow, List.length_mapIdx]

/-- A cell that is not too long is filled to its width. -/
theorem length_filled (stops : TabStops) {w : Int} (h : (cell.length : Int) ≤ w) :
    ((stops.filled w cell).length : Int) = w := by
  rw [filled, List.length_append, List.length_replicate]
  omega

/-- One more cell makes a row longer by the width of its column. -/
theorem length_take_succ (stops : TabStops) {width : Nat → Int} {cells : List Text} {n : Nat}
    (hn : n < cells.length) (hfit : (cells[n].length : Int) ≤ width n) :
    (((stops.filledRow width cells).take (n + 1)).flatten.length : Int)
      = ((stops.filledRow width cells).take n).flatten.length + width n := by
  have hlt : n < (stops.filledRow width cells).length := by
    rwa [filledRow, List.length_mapIdx]
  have hcell : (stops.filledRow width cells)[n] = stops.filled (width n) cells[n] :=
    List.getElem_mapIdx
  rw [List.take_succ_eq_append_getElem hlt, List.flatten_append, List.length_append, hcell,
    List.flatten_singleton, Int.natCast_add, length_filled stops hfit]

/-- **Rows of the same widths** start their fields at the same places. -/
theorem length_take_congr (stops : TabStops) {width width' : Nat → Int} {cells cells' : List Text}
    {n : Nat} (hn : n ≤ cells.length) (hn' : n ≤ cells'.length)
    (hfit : ∀ c cell, cells[c]? = some cell → (cell.length : Int) ≤ width c)
    (hfit' : ∀ c cell, cells'[c]? = some cell → (cell.length : Int) ≤ width' c)
    (hwidths : ∀ c < n, width c = width' c) :
    (((stops.filledRow width cells).take n).flatten.length : Int)
      = ((stops.filledRow width' cells').take n).flatten.length := by
  induction n with
  | zero => rfl
  | succ n ih =>
    have hbefore := ih (Nat.le_of_succ_le hn) (Nat.le_of_succ_le hn')
      fun c hc => hwidths c (Nat.lt_succ_of_lt hc)
    rw [length_take_succ stops hn (hfit n _ (List.getElem?_eq_getElem hn)),
      length_take_succ stops hn' (hfit' n _ (List.getElem?_eq_getElem hn')), hbefore,
      hwidths n (Nat.lt_succ_self n)]

/-! ## Tables -/

/-- **Cells filled to the widths of their columns.** There are as many in each row as there were,
and each is what it was with as much behind it as makes it as long as its column is wide. -/
structure IsElastic (stops : TabStops) (rows : List Row) (filled : List (List Text)) : Prop where
  shape : filled.map List.length = rows.map fun r => r.cells.length
  cell : ∀ i c r cells cell out, rows[i]? = some r → filled[i]? = some cells →
    r.cells[c]? = some cell → cells[c]? = some out →
    (∃ n, out = cell ++ List.replicate n stops.fill)
      ∧ ∀ w, stops.IsWidth rows i c w ↔ w = out.length

/-- A list around an element that it has at a place. -/
theorem eq_take_append_of_getElem? {α : Type} {xs : List α} {x : α} {i : Nat}
    (h : xs[i]? = some x) : xs = xs.take i ++ x :: xs.drop (i + 1) ∧ (xs.take i).length = i := by
  obtain ⟨hi, rfl⟩ := List.getElem?_eq_some_iff.mp h
  rw [List.getElem_cons_drop, List.take_append_drop, List.length_take]
  exact ⟨rfl, Nat.min_eq_left (Nat.le_of_lt hi)⟩

/-- **Alignment fills cells to the widths of their columns.** -/
theorem isElastic_filledRows (hpadding : 0 ≤ stops.padding) (rows : List Row) :
    stops.IsElastic rows (stops.filledRows [] rows) := by
  refine ⟨map_length_filledRows stops [] rows, fun i c r cells cell out hr hcells hcell hout => ?_⟩
  obtain ⟨hrows, hlength⟩ := eq_take_append_of_getElem? hr
  generalize rows.take i = before, rows.drop (i + 1) = after at hrows hlength
  subst hrows hlength
  rw [getElem?_filledRows, List.append_nil] at hcells
  obtain rfl := Option.some.inj hcells
  obtain rfl : stops.filled _ cell = out := by
    rw [filledRow, List.getElem?_mapIdx, hcell] at hout
    exact Option.some.inj hout
  obtain ⟨hc, -⟩ := List.getElem?_eq_some_iff.mp hcell
  have hwidth := isWidth_width stops before.reverse after hc
  rw [List.reverse_reverse, List.length_reverse] at hwidth
  refine ⟨⟨_, rfl⟩, fun w => ?_⟩
  rw [length_filled stops (length_le_width hpadding _ _ hcell)]
  exact ⟨fun hw => hw.unique hwidth, fun hw => hw ▸ hwidth⟩

/-- **Neighbours start their next field at the same place** if both have a cell before it. -/
theorem length_take_eq (hpadding : 0 ≤ stops.padding) (hc : c < r.cells.length)
    (hc' : c < r'.cells.length) :
    ((stops.filledRow (stops.width above (r :: r' :: below)) r.cells).take (c + 1)).flatten.length
      = ((stops.filledRow (stops.width (r :: above) (r' :: below)) r'.cells).take
        (c + 1)).flatten.length := by
  have hwidths : ∀ k < c + 1, stops.width above (r :: r' :: below) k
      = stops.width (r :: above) (r' :: below) k := fun k hk => by
    have hk : k ≤ c := Nat.le_of_lt_succ hk
    exact (width_cons (Nat.lt_of_le_of_lt hk hc) (Nat.lt_of_le_of_lt hk hc')).symm
  exact_mod_cast length_take_congr stops (Nat.succ_le_of_lt hc) (Nat.succ_le_of_lt hc')
    (fun k cell => length_le_width hpadding above (r' :: below))
    (fun k cell => length_le_width hpadding (r :: above) below) hwidths

theorem length_take_eq_of_neighbours (hpadding : 0 ≤ stops.padding) {i : Nat}
    {cells cells' : List Text} (hcells : (stops.filledRows [] rows)[i]? = some cells)
    (hcells' : (stops.filledRows [] rows)[i + 1]? = some cells') (hc : c < cells.length)
    (hc' : c < cells'.length) :
    (cells.take (c + 1)).flatten.length = (cells'.take (c + 1)).flatten.length := by
  have hlength : (stops.filledRows [] rows).length = rows.length := by
    simpa using congrArg List.length (map_length_filledRows stops [] rows)
  have hi : i + 1 < rows.length := hlength ▸ (List.getElem?_eq_some_iff.mp hcells').1
  obtain ⟨hrows, hbefore⟩ :=
    eq_take_append_of_getElem? (List.getElem?_eq_getElem (Nat.lt_of_succ_lt hi))
  rw [List.drop_eq_getElem_cons hi] at hrows
  generalize rows.take i = before, rows[i] = r, rows[i + 1] = r', rows.drop (i + 1 + 1) = after
    at hrows hbefore
  subst hrows hbefore
  have hnext : before.length + 1 = (before ++ [r]).length := by simp
  rw [getElem?_filledRows, List.append_nil] at hcells
  rw [List.append_cons, hnext, getElem?_filledRows, List.append_nil, List.reverse_concat]
    at hcells'
  obtain rfl := Option.some.inj hcells
  obtain rfl := Option.some.inj hcells'
  rw [filledRow, List.length_mapIdx] at hc hc'
  exact length_take_eq hpadding hc hc'

/-! ## Aligned texts -/

/-- What is in no cell, and is nothing that cells are filled with, is in no filled cell. -/
theorem notMem_filledCells {p : CodePoint} (hfill : p ≠ stops.fill) (width : Nat → Int) (c : Nat)
    {cells : List Text} (hcells : ∀ cell ∈ cells, p ∉ cell) :
    p ∉ stops.filledCells width c cells := by
  induction cells generalizing c with
  | nil => exact List.not_mem_nil
  | cons cell cells ih =>
    obtain ⟨hcell, hcells⟩ := List.forall_mem_cons.mp hcells
    rw [filledCells, filled]
    simp only [List.mem_append, List.mem_replicate, not_or, not_and]
    exact ⟨⟨hcell, fun _ => hfill⟩, ih (c + 1) hcells⟩

/-- What is in no row, and is nothing that cells are filled with, is in no aligned line. -/
theorem notMem_of_mem_alignedRows {p : CodePoint} (hfill : p ≠ stops.fill) (above : List Row)
    (hrows : ∀ r ∈ rows, r.Lacks p) : ∀ t ∈ stops.alignedRows above rows, p ∉ t := by
  induction rows generalizing above with
  | nil => exact nofun
  | cons r below ih =>
    obtain ⟨hr, hbelow⟩ := List.forall_mem_cons.mp hrows
    refine List.forall_mem_cons.mpr ⟨fun hp => ?_, ih (r :: above) hbelow⟩
    exact (List.mem_append.mp hp).elim (notMem_filledCells hfill _ 0 hr.cells) hr.rest

theorem rowsOf_ne_nil (text : Text) : rowsOf text ≠ [] :=
  fun h => pieces_ne_nil _ text (List.map_eq_nil_iff.mp h)

theorem alignedRows_ne_nil (above : List Row) (hrows : rows ≠ []) :
    stops.alignedRows above rows ≠ [] := by
  obtain ⟨r, below, rfl⟩ := List.exists_cons_of_ne_nil hrows
  exact List.cons_ne_nil _ _

/-- **The lines of an aligned text** are the aligned rows. -/
theorem pieces_align (hfeed : stops.fill ≠ .char '\n') (text : Text) :
    pieces (.char '\n') (stops.align text) = stops.alignedRows [] (rowsOf text) :=
  pieces_join (alignedRows_ne_nil [] (rowsOf_ne_nil text))
    (notMem_of_mem_alignedRows hfeed.symm [] fun _ => lacks_feed_of_mem_rowsOf)

/-- There are as many lines as before. -/
theorem length_pieces_align (hfeed : stops.fill ≠ .char '\n') (text : Text) :
    (pieces (.char '\n') (stops.align text)).length = (pieces (.char '\n') text).length := by
  have hlength : (stops.filledRows [] (rowsOf text)).length = (rowsOf text).length := by
    simpa using congrArg List.length (map_length_filledRows stops [] (rowsOf text))
  rw [pieces_align hfeed, alignedRows_eq, List.length_zipWith, hlength, Nat.min_self,
    ← map_line_rowsOf, List.length_map]

/-- **No tab is left.** -/
theorem tab_notMem_align (htab : stops.fill ≠ .char '\t') (text : Text) :
    .char '\t' ∉ stops.align text := by
  intro hmem
  obtain hfeed | ⟨t, ht, hmem⟩ := mem_of_mem_join hmem
  · cases hfeed
  · exact notMem_of_mem_alignedRows htab.symm [] (fun _ => lacks_tab_of_mem_rowsOf) t ht hmem

/-- The widths of a table are those of its columns. -/
theorem isWidth_of_mem_widths {w : Int} (h : w ∈ stops.widths above rows) :
    ∃ before r after c, rows = before ++ r :: after ∧ c < r.cells.length
      ∧ w = stops.width (before.reverse ++ above) (r :: after) c := by
  induction rows generalizing above with
  | nil => cases h
  | cons r below ih =>
    rw [widths] at h
    obtain h | h := List.mem_append.mp h
    · obtain ⟨c, hc, rfl⟩ := List.mem_map.mp h
      exact ⟨[], r, below, c, rfl, List.mem_range.mp hc, rfl⟩
    · obtain ⟨before, r', after, c, rfl, hc, rfl⟩ := ih h
      refine ⟨r :: before, r', after, c, rfl, hc, ?_⟩
      rw [List.reverse_cons, List.append_assoc, List.singleton_append]

/-- Rows without cells are lines as they are. -/
theorem alignedRows_of_cells_eq_nil (above : List Row) (hrows : ∀ r ∈ rows, r.cells = []) :
    stops.alignedRows above rows = rows.map Row.line ∧ stops.widths above rows = [] := by
  induction rows generalizing above with
  | nil => exact ⟨rfl, rfl⟩
  | cons r below ih =>
    obtain ⟨hr, hbelow⟩ := List.forall_mem_cons.mp hrows
    obtain ⟨haligned, hwidths⟩ := ih (r :: above) hbelow
    rw [alignedRows, widths, haligned, hwidths, List.map_cons, Row.line, hr]
    exact ⟨rfl, rfl⟩

theorem cells_eq_nil_of_mem_rowsOf {text : Text} (htab : .char '\t' ∉ text) (hr : r ∈ rowsOf text) :
    r.cells = [] := by
  obtain ⟨t, ht, rfl⟩ := List.mem_map.mp hr
  have hline : .char '\t' ∉ t := fun hmem =>
    htab (join_pieces (.char '\n') text ▸ mem_join_of_mem ht hmem)
  rw [Row.ofLine_of_tab_notMem hline]

/-- **A text without tabs is aligned as it is.** -/
theorem align_of_tab_notMem {text : Text} (htab : .char '\t' ∉ text) : stops.align text = text := by
  have hrows := fun r hr => cells_eq_nil_of_mem_rowsOf (r := r) htab hr
  rw [align, (alignedRows_of_cells_eq_nil [] hrows).1, map_line_rowsOf, join_pieces]

/-- **Alignment as it is asked for** is alignment as long as all widths are widths that can be
filled. -/
theorem alignWith?_whole (stops : TabStops) (text : Text) :
    alignWith? (.whole stops.minWidth) (.whole stops.padding) [stops.fill] text
      = if (stops.widths [] (rowsOf text)).all isWidth then some (stops.align text) else none := by
  rw [alignWith?]
  split
  · rw [stopsFor?]
    split <;> rfl
  · rename_i htab
    have hnone : .char '\t' ∉ text := by simpa using htab
    have hrows := fun r hr => cells_eq_nil_of_mem_rowsOf (r := r) hnone hr
    rw [(alignedRows_of_cells_eq_nil [] hrows).2, align_of_tab_notMem hnone]
    rfl

/-- **Alignment fills columns.** The rows of a text spell its lines, and its cells are filled to
the widths of their columns, so that every aligned line is the filled cells of its row and the
rest. There are as many lines as before, neighbours that both have a cell start their next field
at the same place, and no tab is left. And the aligned text is what is come to, if it is asked for
with widths that can be filled. -/
theorem align_fills_columns (hpadding : 0 ≤ stops.padding) (htab : stops.fill ≠ .char '\t')
    (hfeed : stops.fill ≠ .char '\n') (text : Text) :
    ∃ (rows : List Row) (filled : List (List Text)),
      pieces (.char '\n') text = rows.map Row.line ∧ (∀ r ∈ rows, r.Lacks (.char '\t'))
      ∧ stops.IsElastic rows filled
      ∧ pieces (.char '\n') (stops.align text)
        = List.zipWith (fun cells r => cells.flatten ++ r.rest) filled rows
      ∧ (pieces (.char '\n') (stops.align text)).length = (pieces (.char '\n') text).length
      ∧ (∀ i c cells cells', filled[i]? = some cells → filled[i + 1]? = some cells' →
        c < cells.length → c < cells'.length →
        (cells.take (c + 1)).flatten.length = (cells'.take (c + 1)).flatten.length)
      ∧ .char '\t' ∉ stops.align text
      ∧ ((∀ i c w, stops.IsWidth rows i c w → w ≤ 0x100000000) →
        alignWith? (.whole stops.minWidth) (.whole stops.padding) [stops.fill] text
          = some (stops.align text)) := by
  have helastic := isElastic_filledRows hpadding (rowsOf text)
  have hlines : pieces (.char '\n') (stops.align text)
      = List.zipWith (fun cells r => cells.flatten ++ r.rest) (stops.filledRows [] (rowsOf text))
        (rowsOf text) := by
    rw [pieces_align hfeed, alignedRows_eq]
  refine ⟨rowsOf text, stops.filledRows [] (rowsOf text), (map_line_rowsOf text).symm,
    fun r => lacks_tab_of_mem_rowsOf, helastic, hlines, length_pieces_align hfeed text, ?_,
    tab_notMem_align htab text, ?_⟩
  · exact fun i c cells cells' => length_take_eq_of_neighbours hpadding
  · intro hbound
    rw [alignWith?_whole, if_pos (List.all_eq_true.mpr fun w hw => ?_)]
    obtain ⟨before, r, after, c, hrows, hc, rfl⟩ := isWidth_of_mem_widths hw
    have hwidth := isWidth_width stops before.reverse after hc
    rw [List.reverse_reverse, List.length_reverse, ← hrows] at hwidth
    have hnonneg := length_le_width hpadding before.reverse after (List.getElem?_eq_getElem hc)
    rw [List.append_nil, isWidth, Bool.and_eq_true, decide_eq_true_eq, decide_eq_true_eq]
    exact ⟨by omega, hbound _ _ _ hwidth⟩

/-- Columns that end at a row without cells, and a last field that a neighbour has as a cell. -/
theorem align_fills_columns_ragged :
    .char '\t' ∉ align ⟨4, 1, '.'⟩ "a\tbcdefg\th\n\ti\n\nlong\tj"
      ∧ alignWith? (.whole 4) (.whole 1) [.char '.'] "a\tbcdefg\th\n\ti\n\nlong\tj"
        = some "a...bcdefg.h\n....i\n\nlong.j" := by
  obtain ⟨rows, -, hrows, -, -, -, -, -, htab, halign⟩ :=
    @align_fills_columns ⟨4, 1, '.'⟩ (by decide) (by decide) (by decide)
      "a\tbcdefg\th\n\ti\n\nlong\tj"
  have hshort : ∀ t ∈ pieces (.char '\n') ("a\tbcdefg\th\n\ti\n\nlong\tj" : Text),
      t.length ≤ 10 := by decide +kernel
  have hlines : ∀ r ∈ rows, r.line.length ≤ 10 :=
    fun r hr => hshort r.line (hrows ▸ List.mem_map_of_mem hr)
  refine ⟨htab, (halign fun i c w hw => ?_).trans (by decide +kernel)⟩
  exact Int.le_trans (hw.le hlines) (by decide)

end TabStops
end Rollout
