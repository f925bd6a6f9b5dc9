import Rollout.Number.Binary64
import Rollout.Text.Basic
import Rollout.Text.Lines

/-!
# Elastic tab stops

A line is a row of cells, each ended by a tab, and a remainder that belongs
to no column. A column reaches over consecutive rows that have a cell in it,
so a row without that cell ends it, and a line without tabs ends all of
them. Every cell is filled up to the width of its column: the longest cell
over the rows the column reaches, plus the padding, and no less than the
least width.

The rows a column reaches from a given row on are read off the rows above
and the rows below it (`longest`), so a cell's width is stated where it is
needed and no table of widths is kept.
-/

namespace Rollout

/-- A line: its cells and what follows the last of them. -/
structure Row where
  cells : List Text
  rest : Text
deriving DecidableEq, Repr

namespace Row

/-- The row of a line whose pieces between tabs are given. -/
def ofPieces (ps : List Text) : Row :=
  ⟨ps.dropLast, ps.getLast?.getD []⟩

/-- The row a line stands for. -/
def ofLine (line : Text) : Row :=
  ofPieces (pieces (.char '\t') line)

end Row

/-- **How a table is aligned.** -/
structure TabStops where
  /-- No column is narrower. -/
  minWidth : Int := 0
  /-- What is added to the longest cell. -/
  padding : Int := 2
  /-- What a cell is filled with. -/
  fill : CodePoint := ' '
deriving DecidableEq, Repr

namespace TabStops

/-- The longest cell in column `c` over the rows at the front that have
one. -/
def longest (c : Nat) : List Row → Nat
  | [] => 0
  | r :: rs =>
    match r.cells[c]? with
    | some cell => max cell.length (longest c rs)
    | none => 0

/-- **The width of column `c` at a row**, with the rows above it, nearest
first, and the row itself with those below. -/
def width (stops : TabStops) (above here : List Row) (c : Nat) : Int :=
  max stops.minWidth (max (longest c above) (longest c here) + stops.padding)

/-- A cell filled on the right; one that is too long stays. -/
def filled (stops : TabStops) (w : Int) (cell : Text) : Text :=
  cell ++ List.replicate (w - cell.length).toNat stops.fill

/-- The cells of a row from column `c` on, each filled to its width. -/
def filledCells (stops : TabStops) (width : Nat → Int) : Nat → List Text → Text
  | _, [] => []
  | c, cell :: cells => stops.filled (width c) cell ++ filledCells stops width (c + 1) cells

/-- The aligned lines of rows, those above them given nearest first. -/
def alignedRows (stops : TabStops) : List Row → List Row → List Text
  | _, [] => []
  | above, r :: below =>
    (stops.filledCells (stops.width above (r :: below)) 0 r.cells ++ r.rest) ::
      alignedRows stops (r :: above) below

/-- The rows of a text. -/
def rowsOf (text : Text) : List Row :=
  (pieces (.char '\n') text).map Row.ofLine

/-- **A text with its cells aligned.** -/
def align (stops : TabStops) (text : Text) : Text :=
  join (.char '\n') (stops.alignedRows [] (rowsOf text))

/-! ## Tables as they are asked for -/

/-- A number of columns as it is asked for: a whole one, or a number with a
point, up to which no cell can be filled. -/
inductive Extent where
  | whole (n : Int)
  | broken (x : Binary64)
deriving DecidableEq, Repr

/-- The widths of all cells. -/
def widths (stops : TabStops) : List Row → List Row → List Int
  | _, [] => []
  | above, r :: below =>
    (List.range r.cells.length).map (stops.width above (r :: below)) ++
      widths stops (r :: above) below

/-- A width to which a cell can be filled: no line is longer than the greatest,
and the least is that of the machine's integers. -/
def isWidth (w : Int) : Bool :=
  -0x8000000000000000 ≤ w && w ≤ 0x100000000

/-- **The tab stops that are asked for**, if all cells of the rows can be
filled. A broken least width is harmless as long as every column is wide
enough without it, and a broken padding as long as every column is narrower
than the least width in spite of it. -/
def stopsFor? (minWidth padding : Extent) (fill : Text) (rows : List Row) : Option TabStops :=
  match fill, minWidth, padding with
  | [c], .whole m, .whole p =>
    let stops : TabStops := ⟨m, p, c⟩
    if (stops.widths [] rows).all isWidth then some stops else none
  | [c], .broken x, .whole p =>
    let stops : TabStops := ⟨p, p, c⟩
    if (stops.widths [] rows).all (fun w => x.compareInt? w != some .gt && isWidth w)
      then some stops else none
  | [c], .whole m, .broken x =>
    let longest := (TabStops.mk 0 0 c).widths [] rows
    if isWidth m && longest.all (fun n => (x.plusInt n).compareInt? m == some .lt)
      then some ⟨m, m - longest.foldl max 0, c⟩ else none
  | _, _, _ => none

/-- **Alignment as it is asked for.** What cannot be done goes unnoticed
where there is no cell. -/
def alignWith? (minWidth padding : Extent) (fill text : Text) : Option Text :=
  if text.contains '\t' then
    (stopsFor? minWidth padding fill (rowsOf text)).map (align · text)
  else some text

example : align {} "a\tb\nlong\tc\n\nx\ty" = "a     b\nlong  c\n\nx  y" := by decide +kernel

end TabStops
end Rollout
