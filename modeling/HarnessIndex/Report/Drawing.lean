import HarnessIndex.Report.HarnessTable
import HarnessIndex.Report.Wrap
import HarnessIndex.Text.Lines

/-!
# Drawing a table

A table is drawn as a box: the title, the headers between heavy lines, and the rows between light
ones. A column is as wide as its widest line, and one blank stands at each side of a cell but at the
outer edges of the table. Drawing fails only on a cell or a title whose tags do not match.
-/

namespace HarnessIndex.Report

open Text (width)

/-- The characters of a line across a box: its ends, what it is made of, and where columns meet. -/
structure Rule where
  start : Char
  fill : Char
  joint : Char
  finish : Char

/-- The line above the headers. -/
def topRule : Rule := ⟨'┏', '━', '┳', '┓'⟩

/-- The line below the headers. -/
def headerRule : Rule := ⟨'┡', '━', '╇', '┩'⟩

/-- The line below the rows. -/
def bottomRule : Rule := ⟨'└', '─', '┴', '┘'⟩

/-- The bar beside headers. -/
def heavyBar : Text := ['┃']

/-- The bar beside cells. -/
def lightBar : Text := ['│']

/-- A column while it is drawn: its side, the columns of its text, and the blanks around it. -/
structure Column where
  side : Side
  size : Nat
  before : Nat
  behind : Nat

/-- The columns that the widest line of a cell takes. -/
def cellWidth (cell : Text) : Nat :=
  ((Text.lines cell).map width).foldl max 0

/-- The columns of a table, from the position of the first one on. -/
def columnsFrom (position : Nat) : (sides : List Side) → (sizes : List Nat) → List Column
  | side :: sides, size :: sizes =>
      ⟨side, size, if position = 0 then 0 else 1, if sides.isEmpty then 0 else 1⟩ ::
        columnsFrom (position + 1) sides sizes
  | _, _ => []

/-- The widths of the columns whose cells are given row by row. -/
def columnSizes (count : Nat) (rows : List (List Text)) : List Nat :=
  rows.foldl (fun sizes row => List.zipWith max sizes (row.map cellWidth))
    (List.replicate count 0)

/-- The columns that a column takes with the blanks around it. -/
def Column.total (column : Column) : Nat :=
  column.before + column.size + column.behind

/-- A line across a box. -/
def Rule.draw (rule : Rule) (columns : List Column) : Text :=
  rule.start ::
    Text.join [rule.joint] (columns.map fun column => List.replicate column.total rule.fill) ++
    [rule.finish]

/-- A line of a cell, filled up to the width of its column. -/
def Column.place (column : Column) (line : Text) : Text :=
  let filled :=
    match column.side with
    | .left => padEnd column.size line
    | .right => padFront column.size (Text.trimEnd line)
  List.replicate column.before ' ' ++ filled ++ List.replicate column.behind ' '

def Column.lines (column : Column) (cell : Text) : List Text :=
  (wrap .ellipsis column.size cell).map column.place

/-- A row drawn with bars: as many lines as its tallest cell has. -/
def drawRow (bar : Text) (columns : List Column) (cells : List Text) : List Text :=
  let blocks := List.zipWith (fun column cell => (column, column.lines cell)) columns cells
  let height := (blocks.map fun block => block.2.length).foldl max 0
  (List.range height).map fun position =>
    bar ++ Text.join bar (blocks.map fun (column, lines) =>
      (lines[position]?).getD (List.replicate column.total ' ')) ++ bar

variable (dialect : Markup.Dialect)

/-- What a text with markup shows on a terminal. -/
def shown (text : Text) : Option Text :=
  (Markup.render dialect text).map printable

/-- The lines of the title of a table with a number of columns. -/
def titleLines (size : Nat) : Option Text → Option (List Text)
  | none => some []
  | some title =>
      if title.isEmpty then some []
      else (shown dialect title).map fun text => (wrap .fold size text).map (padEnd size)

/-- The lines of a table, or `none` when the tags of a text do not match. -/
def draw (table : Table) : Option (List Text) := do
  let headers ← (table.columns.map Prod.fst).mapM (shown dialect)
  let rows ← table.rows.mapM fun row => row.mapM (shown dialect)
  let sizes := columnSizes headers.length (headers :: rows)
  let columns := columnsFrom 0 (table.columns.map Prod.snd) sizes
  let total := columns.foldr (fun column size => column.total + size) (columns.length + 1)
  let title ← titleLines dialect total table.title
  return title ++ [topRule.draw columns] ++ drawRow heavyBar columns headers ++
    [headerRule.draw columns] ++ rows.flatMap (drawRow lightBar columns) ++
    [bottomRule.draw columns]

end HarnessIndex.Report
