import DocSelect.Readers.Markdown.Reference

/-!
# Marks that begin blocks

Thematic breaks, headings, fences of code, quotes and list items are known by the marks that
their lines begin with. Up to three columns of blanks may stand before a mark; the readers here
leave them out without counting them.
-/

namespace DocSelect.Markdown

/-- A text, or none if it is empty. -/
def nonempty (cs : List Char) : Option String :=
  if cs.isEmpty then none else some (String.ofList cs)

/-- Whether a line is a thematic break. -/
def isBreakLine (line : Line) : Bool :=
  let marks := line.text.filter (!isSpaceOrTab ·)
  3 ≤ marks.length &&
    (marks.all (· == '-') || marks.all (· == '*') || marks.all (· == '_'))

/-- The depth of the heading that a line underlines, if it is an underline. -/
def underline? (line : Line) : Option Nat :=
  let marks := trimSpaces line.text
  if marks.isEmpty then none
  else if marks.all (· == '=') then some 1
  else if marks.all (· == '-') then some 2
  else none

/-- The text of a heading without the blanks and the words of number signs at its end. -/
def trimClosing : List Char → List Char
  | [] => []
  | c :: cs =>
    let kept := trimClosing cs
    if isSpaceOrTab c && kept.all (· == '#') then [] else c :: kept

/-- The depth and the text of a heading. Number signs at either end are not part of the text. -/
def headingLine? (line : Line) : Option (Nat × List Char) :=
  let text := line.unindented
  let depth := (text.takeWhile (· == '#')).length
  let rest := text.dropWhile (· == '#')
  if 1 ≤ depth && depth ≤ 6 && rest.head?.all isSpaceOrTab then
    some (depth, trimClosing (rest.dropWhile fun c ↦ isSpaceOrTab c || c == '#'))
  else none

/-- The opening fence of some code. -/
structure Fence where
  mark : Char
  length : Nat
  indent : Nat
  info : List Char

/-- The fence that a line is. Backticks cannot stand behind a fence of backticks. -/
def fenceLine? (line : Line) : Option Fence :=
  match line.unindented with
  | [] => none
  | c :: rest =>
    if c = '`' || c = '~' then
      let length := ((c :: rest).takeWhile (· == c)).length
      let info := skipSpaces ((c :: rest).dropWhile (· == c))
      if 3 ≤ length && !(c == '`' && info.contains '`') then
        some ⟨c, length, line.indent, info⟩
      else none
    else none

/-- Whether a line is a closing fence. -/
def Fence.isClosedBy (fence : Fence) (line : Line) : Bool :=
  let marks := trimSpaces line.text
  line.indent ≤ 3 && fence.length ≤ marks.length && marks.all (· == fence.mark)

/-- The language of fenced code, which is the first word behind the fence. -/
def Fence.language (fence : Fence) : Option String :=
  nonempty (unescape (fence.info.takeWhile (!isSpaceOrTab ·)))

/-- What stands behind the language of fenced code. -/
def Fence.extra (fence : Fence) : Option String :=
  nonempty (unescape (skipSpaces (fence.info.dropWhile (!isSpaceOrTab ·))))

/-- A quoted line without its mark. -/
def quoteLine? (line : Line) : Option Line :=
  if line.indent ≤ 3 && line.unindented.head? == some '>' then some ((line.behindMark 1).skip 1)
  else none

/-- The mark of a list item: the character that the items of a list share, the number if the item
has one, and the column at which its text begins. -/
structure ItemMark where
  mark : Char
  start : Option Nat
  width : Nat

/-- A list item from the line behind its mark, which takes `length` characters. A text that begins
five or more columns behind the mark is indented code. -/
def itemBehind? (mark : Char) (start : Option Nat) (length : Nat) (line : Line) :
    Option (ItemMark × Line) :=
  let rest := line.behindMark length
  let width := line.indent + length
  if rest.isEmpty then some (⟨mark, start, width + 1⟩, rest)
  else if rest.indent = 0 then none
  else if 5 ≤ rest.indent then some (⟨mark, start, width + 1⟩, rest.skip 1)
  else some (⟨mark, start, width + rest.indent⟩, rest.skip rest.indent)

/-- The list item that a line begins. -/
def itemLine? (line : Line) : Option (ItemMark × Line) :=
  if 4 ≤ line.indent || isBreakLine line then none
  else
    let text := line.unindented
    let digits := text.takeWhile Char.isDigit
    match text.drop digits.length with
    | [] => none
    | c :: _ =>
      if digits.isEmpty then
        if c = '-' || c = '*' || c = '+' then itemBehind? c none 1 line else none
      else if (c = '.' || c = ')') && digits.length ≤ 9 then
        itemBehind? c (some (Nat.ofDigitChars 10 digits 0)) (digits.length + 1) line
      else none

/-- The list item that a line begins right behind the text of a paragraph. It must not be empty,
and if it has a number, the number is one. -/
def interruptingItem? (line : Line) : Option (ItemMark × Line) :=
  (itemLine? line).filter fun (item, rest) ↦
    !rest.isEmpty && item.start.all (· == 1) && line.unindented.head? != some '0'

/-- Whether a line begins a block of its own even right behind the text of a paragraph. -/
def interrupts (line : Line) : Bool :=
  line.indent ≤ 3 &&
    (isBreakLine line || (headingLine? line).isSome || (fenceLine? line).isSome)

end DocSelect.Markdown
