import WasmUdon.Listing.Row
import WasmUdon.Screen.Block

/-!
# Tables

A listing as a table whose columns are as wide as their widest cell. The plain form has upright
lines only and a rule below the header; the boxed form is framed and has blanks around every cell.
A cell is measured before its tabs are shown as blanks, so that a tab can make it wrap.
-/

namespace WasmUdon

/-- The columns of the widest line of a cell. -/
def cellWidth (cell : Bytes) : Nat := widest (splitLines cell)

/-- The number of lines that a cell asks for in a column. -/
def cellHeight (width : Nat) (cell : Bytes) : Nat :=
  if width = 0 then 1
  else
    (splitLines (joinLineEnds cell)).foldl (fun height l => height + wrappedHeight width l) 0

/-- How a table is drawn. -/
structure TableStyle where
  /-- Blanks on both sides of every cell. -/
  padding : Nat
  /-- Left border, line between cells and right border of a row. -/
  upright : Char
  /-- The line of a rule. -/
  level : Char
  /-- Left end, crossing and right end of the rule below the header. -/
  rule : Char × Char × Char
  /-- Left end, crossing and right end of the top rule, if there is one. -/
  top : Option (Char × Char × Char)
  /-- Left end, crossing and right end of the bottom rule, if there is one. -/
  bottom : Option (Char × Char × Char)
  deriving Repr

/-- Upright lines and one rule, without a frame. -/
def TableStyle.plain : TableStyle :=
  { padding := 0, upright := '|', level := '-', rule := ('|', '|', '|'), top := none
    bottom := none }

/-- A frame with rounded corners. -/
def TableStyle.boxed : TableStyle :=
  { padding := 1, upright := '│', level := '─', rule := ('├', '┼', '┤'),
    top := some ('╭', '┬', '╮'), bottom := some ('╰', '┴', '╯') }

namespace TableStyle

/-- A rule across columns of the given widths. -/
def drawRule (style : TableStyle) (widths : List Nat) (ends : Char × Char × Char) : Bytes :=
  let (left, cross, right) := ends
  let pieces := widths.map fun w =>
    String.ofList (List.replicate (w + 2 * style.padding) style.level)
  text (String.ofList [left] ++ (String.ofList [cross]).intercalate pieces
    ++ String.ofList [right])

/-- The lines of a cell in a column, as many as the row is high. -/
def drawCell (style : TableStyle) (height width : Nat) (cell : Bytes) : List Bytes :=
  let outer := width + 2 * style.padding
  let size : BlockSize :=
    { width := outer, height, maxWidth := outer, maxHeight := height, padding := style.padding }
  alignLines 0 (size.arrange cell)

/-- The lines of a row of a height. -/
def drawRow (style : TableStyle) (height : Nat) (widths : List Nat) (cells : List Bytes) :
    List Bytes :=
  let blocks := (widths.zip cells).map fun (w, cell) => style.drawCell height w cell
  let upright := text (String.ofList [style.upright])
  (List.range height).map fun i =>
    upright ++ blocks.flatMap fun block => block[i]?.getD [] ++ upright

/-- The height of a row: that of its highest cell, and one at least. -/
def rowHeight (widths : List Nat) (cells : List Bytes) : Nat :=
  ((widths.zip cells).map fun (w, cell) => cellHeight w cell).foldl max 1

/-- A table of rows of cells below a header of one line. -/
def draw (style : TableStyle) (header : List Bytes) (rows : List (List Bytes)) : Bytes :=
  let widths := header.mapIdx fun i cell =>
    (rows.map fun row => cellWidth (row[i]?.getD [])).foldl max (cellWidth cell)
  let lines :=
    (style.top.map (style.drawRule widths)).toList
      ++ style.drawRow 1 widths header
      ++ [style.drawRule widths style.rule]
      ++ rows.flatMap (fun row => style.drawRow (rowHeight widths row) widths row)
      ++ (style.bottom.map (style.drawRule widths)).toList
  stackLines (alignLines 0 lines)

end TableStyle

/-- The columns of a table. -/
def tableHeader : List String := ["#", "kind", "id", "offset", "size", "count", "name"]

/-- The cells of a row; what is missing is a dash. -/
def ListingRow.cells (r : ListingRow) : List String :=
  [toString r.index, r.kind, (r.id.map toString).getD "-", toString r.offset, toString r.size,
    (r.count.map toString).getD "-", r.name]

/-- The table of a listing. -/
def tableListing (style : TableStyle) (rows : List ListingRow) : Bytes :=
  style.draw (tableHeader.map text) (rows.map fun r => r.cells.map text)

end WasmUdon
