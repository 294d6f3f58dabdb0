import LiveTables.Text.Width

/-!
# Grids

Tables of text drawn with lines. Every column is as wide as its widest line; a cell with line feeds
has several lines.
-/

namespace LiveTables.Console

open LiveTables.Text

/-- The characters of one horizontal line of a grid. -/
structure Rule where
  left : String
  fill : Char
  crossing : String
  right : String

namespace Grid

def top : Rule := ⟨"┌", '─', "┬", "┐"⟩

def underHeader : Rule := ⟨"╞", '═', "╪", "╡"⟩

def bottom : Rule := ⟨"└", '─', "┴", "┘"⟩

/-- The lines of the cells of one row. -/
abbrev Cells := List (List String)

def cellLines (text : String) : List String := text.splitOn "\n"

/-- The cells of a row, with blank ones added up to the number of columns. -/
def cellsOf (columns : Nat) (row : List String) : Cells :=
  row.map cellLines ++ List.replicate (columns - row.length) [""]

def cellWidth (lines : List String) : Nat := (lines.map width).foldl max 0

def columnWidths (columns : Nat) (rows : List Cells) : List Nat :=
  (List.range columns).map fun column =>
    (rows.map fun cells => cellWidth (cells.getD column [])).foldl max 0

/-- A line of text with a blank on each side, filled up to a width. -/
def paddedLine (columnWidth : Nat) (line : String) : String :=
  " " ++ line ++ String.ofList (List.replicate (columnWidth - width line) ' ') ++ " "

def ruleLine (rule : Rule) (widths : List Nat) : String :=
  rule.left ++
    rule.crossing.intercalate
      (widths.map fun columnWidth => String.ofList (List.replicate (columnWidth + 2) rule.fill)) ++
    rule.right

def textLine (widths : List Nat) (line : List String) : String :=
  "│" ++ "┆".intercalate ((widths.zip line).map fun (columnWidth, text) =>
    paddedLine columnWidth text) ++ "│"

/-- The lines of one row: as many as its tallest cell has. -/
def rowLines (widths : List Nat) (cells : Cells) : List String :=
  let height := (cells.map List.length).foldl max 0
  (List.range height).map fun index =>
    textLine widths (cells.map fun lines => lines.getD index "")

def lines (header : List String) (rows : List (List String)) : List String :=
  let columns := (rows.map List.length).foldl max header.length
  let header := cellsOf columns header
  let rows := rows.map (cellsOf columns)
  let widths := columnWidths columns (header :: rows)
  [ruleLine top widths] ++ rowLines widths header ++ [ruleLine underHeader widths] ++
    rows.flatMap (rowLines widths) ++ [ruleLine bottom widths]

def render (header : List String) (rows : List (List String)) : String :=
  "\n".intercalate (lines header rows)

end Grid

end LiveTables.Console
