/-!
# Lines of Markdown

Blocks are told apart by the columns at which their lines begin. A tab reaches to the next
column that is a multiple of four. Where a block takes only some of the columns of a tab as its
indent, the others are left as blanks of the line.
-/

namespace DocSelect.Markdown

/-- What is left of a line: blank columns, the text behind them, the column at which the text
begins, and the end of the line. -/
structure Line where
  pad : Nat
  column : Nat
  text : List Char
  ending : List Char
deriving Repr, Inhabited

/-- A space or a tab, which may indent a line and stand at its end. -/
def isSpaceOrTab (c : Char) : Bool := c == ' ' || c == '\t'

/-- A line feed or a carriage return. -/
def isLineEnd (c : Char) : Bool := c == '\n' || c == '\r'

/-- A character that may stand between the parts of a link: a space, a tab or a line end. -/
def isGap (c : Char) : Bool := isSpaceOrTab c || isLineEnd c

/-- The text without the spaces and tabs before it. -/
def skipSpaces (cs : List Char) : List Char := cs.dropWhile isSpaceOrTab

/-- The text without the spaces, tabs and line ends before it. -/
def skipGap (cs : List Char) : List Char := cs.dropWhile isGap

/-- The text without the spaces and tabs around it. -/
def trimSpaces (cs : List Char) : List Char := (skipSpaces (skipSpaces cs).reverse).reverse

/-- The text behind the line end that it begins with, if it does. -/
def lineEnd? : List Char → Option (List Char)
  | '\r' :: '\n' :: rest => some rest
  | c :: rest => if isLineEnd c then some rest else none
  | [] => none

/-- The lines of a text, with their ends; `line` holds the characters passed, last first. -/
def splitLines (line : List Char) : List Char → List (List Char × List Char)
  | [] => if line.isEmpty then [] else [(line.reverse, [])]
  | '\r' :: '\n' :: rest => (line.reverse, ['\r', '\n']) :: splitLines [] rest
  | c :: rest =>
    if isLineEnd c then (line.reverse, [c]) :: splitLines [] rest else splitLines (c :: line) rest

/-- The lines of a text. A line ends with a line feed, a carriage return, or both in this
order. -/
def linesOf (text : List Char) : List Line :=
  (splitLines [] text).map fun (line, ending) ↦ ⟨0, 0, line, ending⟩

/-- The columns that a blank takes from a column on. -/
def blankWidth (c : Char) (column : Nat) : Nat := if c = '\t' then 4 - column % 4 else 1

/-- The columns of the blanks before a text that begins at a column. -/
def indentFrom (column : Nat) : List Char → Nat
  | [] => 0
  | c :: cs =>
    if isSpaceOrTab c then blankWidth c column + indentFrom (column + blankWidth c column) cs
    else 0

namespace Line

/-- The columns of the blanks before a line. -/
def indent (line : Line) : Nat := line.pad + indentFrom line.column line.text

/-- Whether a line has nothing but blanks. -/
def isEmpty (line : Line) : Bool := line.text.all isSpaceOrTab

/-- The text of a line without the blanks before it. -/
def unindented (line : Line) : List Char := skipSpaces line.text

/-- The text of a line, with the blanks before it. -/
def content (line : Line) : List Char := List.replicate line.pad ' ' ++ line.text

/-- Leaves out the blanks before a text, but at most `n` columns of them. -/
def skipColumns (ending : List Char) (n column : Nat) : List Char → Line
  | [] => ⟨0, column, [], ending⟩
  | c :: cs =>
    if n = 0 || !isSpaceOrTab c then ⟨0, column, c :: cs, ending⟩
    else
      let width := blankWidth c column
      if width ≤ n then skipColumns ending (n - width) (column + width) cs
      else ⟨width - n, column + width, cs, ending⟩

/-- Leaves out the blanks before a line, but at most `n` columns of them. -/
def skip (n : Nat) (line : Line) : Line :=
  if n ≤ line.pad then { line with pad := line.pad - n }
  else skipColumns line.ending (n - line.pad) line.column line.text

/-- Leaves out the blanks before a line and `n` characters behind them. -/
def behindMark (n : Nat) (line : Line) : Line :=
  let line := line.skip line.indent
  { line with column := line.column + n, text := line.text.drop n }

end Line

/-- The text of some lines with the line ends between them. -/
def joinLines : List Line → List Char
  | [] => []
  | [line] => line.content
  | line :: rest => line.content ++ line.ending ++ joinLines rest

/-- A text with the spaces and tabs around its line ends left out. -/
def trimLines (cs : List Char) : List Char :=
  cs.foldr
    (fun c rest ↦
      if isSpaceOrTab c && rest.head?.any isLineEnd then rest
      else if isLineEnd c then c :: skipSpaces rest
      else c :: rest)
    []

end DocSelect.Markdown
