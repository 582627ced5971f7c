import DocSelect.Readers.Markdown.Inline
import DocSelect.Readers.Markdown.Outline

/-!
# Reading Markdown

A document is read in two steps: its lines are grouped into blocks, and then the raw texts
within the blocks are read under the definitions that the blocks contain. A list item whose
first paragraph begins with a box is a task, done or not.

Tags, character references, footnotes, and addresses that stand by themselves have no meaning
of their own here: they are text.
-/

namespace DocSelect.Markdown

mutual
/-- The identifiers that a node and those within it define. -/
def defined : Markdown → List String
  | .container _ children => definedAll children
  | .void (.definition _ _ identifier _) => [identifier]
  | .literal _ _ | .void _ => []

/-- The identifiers that some nodes and those within them define. -/
def definedAll : List Markdown → List String
  | [] => []
  | m :: ms => defined m ++ definedAll ms
end

/-- Whether a task is done, and the text behind its box and behind the blank or line end that
follows the box. There must be more than blanks behind. -/
def taskBox? (text : List Char) : Option (Bool × List Char) :=
  match text with
  | '[' :: c :: ']' :: d :: rest =>
    if (c = 'x' || c = 'X' || isGap c) && isGap d && rest.any (!isSpaceOrTab ·) then
      some (!isGap c, ((lineEnd? (d :: rest)).map skipSpaces).getD rest)
    else none
  | _ => none

/-- Whether the children of a list item make it a task, and whether that is done. Definitions may
stand before the paragraph with the box. -/
def task? : List Markdown → Option Bool
  | .void (.definition _ _ _ _) :: rest => task? rest
  | .container .paragraph [.literal .text raw] :: _ => (taskBox? raw.toList).map (·.1)
  | _ => none

mutual
/-- Reads the raw texts within a node. -/
def readTexts (definitions : List String) : Markdown → Markdown
  | .container .paragraph [.literal .text raw] =>
    .container .paragraph (inlines ⟨definitions, false⟩ raw.toList)
  | .container (.heading depth) [.literal .text raw] =>
    .container (.heading depth) (inlines ⟨definitions, false⟩ raw.toList)
  | .container .tableCell [.literal .text raw] =>
    .container .tableCell (inlines ⟨definitions, true⟩ raw.toList)
  | .container (.listItem spread _) children =>
    .container (.listItem spread (task? children)) (readItemTexts definitions children)
  | .container kind children => .container kind (readAllTexts definitions children)
  | .literal kind value => .literal kind value
  | .void kind => .void kind

/-- Reads the raw texts within some nodes. -/
def readAllTexts (definitions : List String) : List Markdown → List Markdown
  | [] => []
  | m :: ms => readTexts definitions m :: readAllTexts definitions ms

/-- Reads the raw texts within the children of a list item, without the box of a task. -/
def readItemTexts (definitions : List String) : List Markdown → List Markdown
  | [] => []
  | .void kind :: rest => .void kind :: readItemTexts definitions rest
  | .container .paragraph [.literal .text raw] :: rest =>
    let children :=
      match taskBox? raw.toList with
      | some (_, text) => inlinesBehind ⟨definitions, false⟩ none text
      | none => inlines ⟨definitions, false⟩ raw.toList
    .container .paragraph children :: readAllTexts definitions rest
  | m :: rest => readTexts definitions m :: readAllTexts definitions rest
end

/-- The document that a text is. A mark of byte order before it is not part of it. -/
def read (text : String) : Markdown :=
  let text := text.toList
  let lines := linesOf (if text.head? == some '\ufeff' then text.drop 1 else text)
  let (front, lines) :=
    match frontMatter? lines with
    | some (m, rest) => ([m], rest)
    | none => ([], lines)
  let body := blocks lines
  .container .root (front ++ readAllTexts (definedAll body) body)

end DocSelect.Markdown
