import Mathlib.Data.List.Forall2
import Rollout.Proofs.Text.Blocks

/-!
# Tables of two fields

Where every line of a table has two fields, a tab between them, the first fields are one column,
and the second start at the same place in all lines (`TabStops.exists_lines_align`). The second
field is shown as it is, unless there are tabs in it: these are columns to alignment, too, and
what comes of them is `Spread`.

A field must not hold what ends it. For the first this is a tab or a line feed, for the second
only a line feed.
-/

namespace Rollout

/-- **Tabs spread**: each of them is replaced by a code point, `n` times or more. -/
inductive Spread (p : CodePoint) (n : Int) : Text → Text → Prop where
  | nil : Spread p n [] []
  | cons {q : CodePoint} {s t : Text} (hq : q ≠ .char '\t') :
      Spread p n s t → Spread p n (q :: s) (q :: t)
  | tab {k : Nat} {s t : Text} (hk : n ≤ k) :
      Spread p n s t → Spread p n (.char '\t' :: s) (List.replicate k p ++ t)

namespace Spread

variable {p : CodePoint} {n : Int} {s t u : Text}

theorem append_left (hs : .char '\t' ∉ s) (h : Spread p n t u) : Spread p n (s ++ t) (s ++ u) := by
  induction s with
  | nil => exact h
  | cons q s ih =>
    obtain ⟨hq, hs⟩ := not_or.mp (mt List.mem_cons.mpr hs)
    exact .cons (Ne.symm hq) (ih hs)

theorem of_tab_notMem (hs : .char '\t' ∉ s) : Spread p n s s := by
  have h : Spread p n (s ++ []) (s ++ []) := append_left hs .nil
  rwa [List.append_nil] at h

theorem tab_notMem (hp : p ≠ .char '\t') (h : Spread p n s t) : .char '\t' ∉ t := by
  induction h with
  | nil => exact List.not_mem_nil
  | cons hq _ ih => exact mt List.mem_cons.mp (not_or.mpr ⟨hq.symm, ih⟩)
  | tab _ _ ih =>
    refine mt List.mem_append.mp (not_or.mpr ⟨fun hmem => hp ?_, ih⟩)
    exact (List.eq_of_mem_replicate hmem).symm

/-- **A text stays as it is** just if there is no tab in it. -/
theorem eq_iff (hp : p ≠ .char '\t') (h : Spread p n s t) : t = s ↔ .char '\t' ∉ s := by
  refine ⟨fun heq => heq ▸ h.tab_notMem hp, fun hs => ?_⟩
  induction h with
  | nil => rfl
  | cons _ _ ih => rw [ih (mt (List.mem_cons_of_mem _) hs)]
  | tab => exact absurd List.mem_cons_self hs

end Spread

/-- A line of two fields. -/
def fieldLine (f : Text × Text) : Text :=
  f.1 ++ .char '\t' :: f.2

namespace TabStops

variable {stops : TabStops} {fields : List (Text × Text)}

/-- **A line of a table**: the first field, filled up to the place where all second fields start,
and the second field, which is as it was just if there is no tab in it. -/
structure IsLine (stops : TabStops) (w : Int) (first second line : Text) : Prop where
  fits : first.length + stops.padding ≤ w
  eq : ∃ shown, line = stops.filled w first ++ shown
    ∧ Spread stops.fill stops.padding second shown ∧ (shown = second ↔ .char '\t' ∉ second)

/-- Cells that are filled spread the tabs behind them. -/
theorem spread_filledCells {width : Nat → Int} {c : Nat} {cells : List Text} {rest : Text}
    (hcells : ∀ cell ∈ cells, .char '\t' ∉ cell) (hrest : .char '\t' ∉ rest)
    (hwidth : ∀ k cell, cells[k]? = some cell → cell.length + stops.padding ≤ width (c + k)) :
    Spread stops.fill stops.padding (Row.line ⟨cells, rest⟩)
      (stops.filledCells width c cells ++ rest) := by
  induction cells generalizing c with
  | nil => exact .of_tab_notMem hrest
  | cons cell cells ih =>
    obtain ⟨hcell, hcells⟩ := List.forall_mem_cons.mp hcells
    have hfirst : cell.length + stops.padding ≤ width c := hwidth 0 cell rfl
    have htail := @ih (c + 1) hcells fun k cell' hcell' => by
      rw [Nat.add_right_comm, Nat.add_assoc]
      exact hwidth (k + 1) cell' hcell'
    rw [Row.line, List.flatMap_cons, filledCells, filled]
    simp only [List.append_assoc, List.singleton_append]
    exact .append_left hcell (.tab (by omega) htail)

/-- The row of a line with a tab begins with what is before the tab. -/
theorem ofLine_fieldLine {f : Text × Text} (hfirst : .char '\t' ∉ f.1) :
    Row.ofLine (fieldLine f) = ⟨f.1 :: (Row.ofLine f.2).cells, (Row.ofLine f.2).rest⟩ := by
  obtain ⟨p, ps, hpieces⟩ := List.exists_cons_of_ne_nil (pieces_ne_nil (.char '\t') f.2)
  rw [Row.ofLine, fieldLine, pieces_append hfirst, Row.ofLine, hpieces]
  rfl

/-- **A line of two fields** is aligned as a line of a table. -/
theorem isLine_filledCells (htab : stops.fill ≠ .char '\t') {f : Text × Text}
    (hfirst : .char '\t' ∉ f.1) {r : Row} (hr : Row.ofLine (fieldLine f) = r)
    (above below : List Row) :
    stops.IsLine (stops.width above (r :: below) 0) f.1 f.2
      (stops.filledCells (stops.width above (r :: below)) 0 r.cells ++ r.rest) := by
  rw [ofLine_fieldLine hfirst] at hr
  have hfits : ∀ c cell, r.cells[c]? = some cell →
      cell.length + stops.padding ≤ stops.width above (r :: below) c :=
    fun c cell => length_add_padding_le_width stops above below
  generalize stops.width above (r :: below) = width at hfits ⊢
  subst hr
  obtain ⟨hcells, hrest⟩ := Row.lacks_tab_ofLine f.2
  have hspread : Spread stops.fill stops.padding (Row.ofLine f.2).line _ :=
    @spread_filledCells stops width 1 _ _ hcells hrest fun k cell hcell =>
      hfits (1 + k) cell (Nat.add_comm k 1 ▸ hcell)
  rw [Row.line_ofLine] at hspread
  exact ⟨hfits 0 f.1 rfl, _, List.append_assoc _ _ _, hspread, hspread.eq_iff htab⟩

/-- **Lines of two fields have a column in common**, the first. -/
theorem forall₂_alignedRows (htab : stops.fill ≠ .char '\t')
    (hfirst : ∀ f ∈ fields, .char '\t' ∉ f.1) (above : List Row) :
    let rows := fields.map fun f => Row.ofLine (fieldLine f)
    List.Forall₂ (fun f line => stops.IsLine (stops.width above rows 0) f.1 f.2 line) fields
      (stops.alignedRows above rows) := by
  induction fields generalizing above with
  | nil => exact .nil
  | cons f fields ih =>
    obtain ⟨hf, hfields⟩ := List.forall_mem_cons.mp hfirst
    refine .cons (isLine_filledCells htab hf rfl above _) ?_
    have hbelow := ih hfields (Row.ofLine (fieldLine f) :: above)
    -- With a line below, both find the same width; without one there is nothing left to show.
    cases fields with
    | nil => exact .nil
    | cons f' fields =>
      have hcell : ∀ g ∈ f :: f' :: fields, 0 < (Row.ofLine (fieldLine g)).cells.length :=
        fun g hg => by
          rw [ofLine_fieldLine (hfirst g hg)]
          exact Nat.succ_pos _
      have hnext := List.mem_cons_of_mem f (List.mem_cons_self (a := f') (l := fields))
      simp only [List.map_cons, width_cons (hcell f List.mem_cons_self) (hcell f' hnext)]
        at hbelow ⊢
      exact hbelow

/-- **Second fields start at the same place.** Each line of a table becomes one line. -/
theorem exists_lines_align (htab : stops.fill ≠ .char '\t') (hfeed : stops.fill ≠ .char '\n')
    (hfirst : ∀ f ∈ fields, .char '\t' ∉ f.1 ∧ .char '\n' ∉ f.1)
    (hsecond : ∀ f ∈ fields, .char '\n' ∉ f.2) :
    ∃ w lines, List.Forall₂ (fun f line => stops.IsLine w f.1 f.2 line) fields lines
      ∧ pieces (.char '\n') (stops.align (fields.flatMap (fieldLine · ++ [.char '\n'])))
        = lines ++ [[]] := by
  have hrows : rowsOf (fields.flatMap (fieldLine · ++ [.char '\n']))
      = (fields.map fun f => Row.ofLine (fieldLine f)) ++ [⟨[], []⟩] := by
    have hclean : ∀ t ∈ fields.map fieldLine, .char '\n' ∉ t := by
      intro t ht
      obtain ⟨f, hf, rfl⟩ := List.mem_map.mp ht
      simp [fieldLine, (hfirst f hf).2, hsecond f hf]
    have hended := pieces_flatMap hclean
    rw [List.flatMap_map] at hended
    rw [rowsOf, hended, List.map_append, List.map_map]
    rfl
  have hlast : (⟨[], []⟩ : Row).cells = [] := rfl
  have hlines := forall₂_alignedRows htab (fun f hf => (hfirst f hf).1) []
  refine ⟨_, _, hlines, ?_⟩
  rw [pieces_align hfeed, hrows, (alignedRows_append hlast [] _ []).1]
  rfl

end TabStops
end Rollout
