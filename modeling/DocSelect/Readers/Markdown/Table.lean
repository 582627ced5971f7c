import DocSelect.Readers.Markdown.Mark

/-!
# Tables

A table begins with a line of column names and a line of hyphens and colons, which gives every
column an alignment. Bars separate the cells of a row, and a backslash before a bar makes it part
of a cell.
-/

namespace DocSelect.Markdown

/-- The texts between the bars of a line; `cell` holds the characters passed, last first. -/
def splitBars (cell : List Char) : List Char → List (List Char)
  | [] => [cell.reverse]
  | '\\' :: c :: rest =>
    if c = '\\' || c = '|' then splitBars (c :: '\\' :: cell) rest
    else splitBars ('\\' :: cell) (c :: rest)
  | '|' :: rest => cell.reverse :: splitBars [] rest
  | c :: rest => splitBars (c :: cell) rest

/-- The cells of a row, with the blanks around their texts. Blanks before the first bar and behind
the last one are none. At an end without a bar the cell has a blank of its own, because no bar
stands beside its text. -/
def rowCells (line : Line) : List (List Char) :=
  let row := trimSpaces line.text
  let cells := splitBars [] ((if row.head? == some '|' then [] else [' ']) ++ row)
  let cells := if 2 ≤ cells.length && cells.head? == some [] then cells.drop 1 else cells
  if 2 ≤ cells.length && cells.getLast? == some [] then cells.dropLast
  else cells.dropLast ++ (cells.getLast?.map (· ++ [' '])).toList

/-- The alignment that a cell of the second line of a table asks for. -/
def alignmentCell? (cell : List Char) : Option (Option Alignment) :=
  let left := cell.head? == some ':'
  let hyphens := if left then cell.drop 1 else cell
  let right := hyphens.getLast? == some ':'
  let hyphens := if right then hyphens.dropLast else hyphens
  if !hyphens.isEmpty && hyphens.all (· == '-') then
    some (match left, right with
      | true, true => some .center
      | true, false => some .left
      | false, true => some .right
      | false, false => none)
  else none

/-- The alignments of a table whose first two lines are given. The second one needs a bar or a
colon, and both have as many cells as the table has columns. -/
def tableStart? (header alignments : Line) : Option (List (Option Alignment)) :=
  if header.indent ≤ 3 && alignments.indent ≤ 3 && trimSpaces header.text != ['|']
      && alignments.text.any fun c ↦ c == '|' || c == ':' then
    ((rowCells alignments).mapM fun cell ↦ alignmentCell? (trimSpaces cell)).filter fun align ↦
      align.length = (rowCells header).length
  else none

/-- A node that holds its raw text, if that is more than blanks. -/
def rawNode (kind : Container) (text : List Char) : Markdown :=
  .container kind (if text.all isSpaceOrTab then [] else [ofText text])

/-- A row of a table. -/
def tableRow (line : Line) : Markdown :=
  .container .tableRow ((rowCells line).map (rawNode .tableCell))

end DocSelect.Markdown
