import DocSelect.Readers.Markdown.Block

/-!
# Outline of a document

The lines of a document are read one by one into an outline: the containers that are still open,
what they hold so far, and the block that the last line left open. A line goes on with the
containers whose marks or indent it has, and may open others. A line of text without them still
goes on with an open paragraph.

At this stage paragraphs, headings and table cells hold their raw text, because references
within them need the definitions of the whole document.
-/

namespace DocSelect.Markdown

/-- An open container and what it holds, the last entry first. -/
structure Level where
  frame : Frame
  entries : List Entry

/-- The block that the last line left open, with its lines, the last one first. Indented code keeps
the blank lines behind it apart, because they belong to it only if more code follows. -/
inductive Leaf where
  | closed
  | underlined
  | paragraph (lines : List Line)
  | fenced (fence : Fence) (lines : List Line)
  | indented (lines blanks : List Line)
  | table (align : List (Option Alignment)) (rows : List Line)

namespace Leaf

/-- Whether a line of text goes on with a block even if it does not go on with its containers. -/
def isOpenText : Leaf → Bool
  | underlined | paragraph _ => true
  | closed | fenced _ _ | indented _ _ | table _ _ => false

/-- Whether the lines of a block are those of a paragraph. -/
def isParagraph : Leaf → Bool
  | paragraph _ => true
  | closed | underlined | fenced _ _ | indented _ _ | table _ _ => false

/-- Whether marks mean nothing in the lines of a block. -/
def isVerbatim : Leaf → Bool
  | fenced _ _ => true
  | closed | underlined | paragraph _ | indented _ _ | table _ _ => false

/-- A block with one more line of text. -/
def withText (line : Line) : Leaf → Leaf
  | paragraph lines => paragraph (line :: lines)
  | closed | underlined | fenced _ _ | indented _ _ | table _ _ => paragraph [line]

end Leaf

/-- A document that is read up to some line: the entries of the document itself, the last one
first, the open containers, the innermost one first, the open block, and whether the last line was
blank and is not an entry yet. -/
structure Outline where
  entries : List Entry
  levels : List Level
  leaf : Leaf
  blank : Bool

namespace Outline

/-- The outline of no lines. -/
def empty : Outline := ⟨[], [], .closed, false⟩

/-- Adds an entry to the innermost container. -/
def add (o : Outline) (entry : Entry) : Outline :=
  match o.levels with
  | [] => { o with entries := entry :: o.entries }
  | level :: outer =>
    { o with levels := { level with entries := entry :: level.entries } :: outer }

/-- Adds a node to the innermost container. -/
def addNode (o : Outline) (node : Markdown) : Outline := o.add (.node node)

/-- Makes a blank line before an entry. -/
def addBlank (o : Outline) : Outline := if o.blank then { o.add .gap with blank := false } else o

/-- Adds the definitions that the lines of a paragraph begin with, and the text behind them as a
node of a kind. The result says whether there is such a text. -/
def addText (o : Outline) (kind : Container) (lines : List Line) : Outline × Bool :=
  let text := joinLines lines.reverse
  let (definitions, text) := definitionsOf text.length text
  let o := definitions.foldl addNode o
  if text.all isGap then (o, false) else (o.addNode (rawNode kind text), true)

/-- Closes the open block. Of the blank lines behind indented code all but the last one are gaps
of the innermost container; where the last one belongs depends on the line behind it. -/
def closeLeaf (o : Outline) : Outline :=
  let closed := { o with leaf := .closed }
  match o.leaf with
  | .closed | .underlined => closed
  | .paragraph lines => (closed.addText .paragraph lines).1
  | .fenced fence lines =>
    closed.addNode (.literal (.code fence.language fence.extra)
      (String.ofList (joinLines lines.reverse)))
  | .indented lines blanks =>
    let code := String.ofList (joinLines lines.reverse)
    let closed := closed.addNode (.literal (.code none none) code)
    { (blanks.drop 1).foldl (fun o _ ↦ o.add .gap) closed with blank := !blanks.isEmpty }
  | .table align rows =>
    closed.addNode (.container (.table align) (rows.reverse.map tableRow))

/-- Closes some of the innermost containers. -/
def closeLevels : (count : Nat) → Outline → Outline
  | 0, o => o
  | count + 1, o =>
    match o.levels with
    | [] => o
    | level :: outer =>
      closeLevels count ({ o with levels := outer }.add (level.frame.toEntry level.entries))

/-- Closes the open block and some of the innermost containers. A blank line before it lies between
what was closed and what follows, unless it was a line of a quote. -/
def close (o : Outline) (count : Nat) : Outline :=
  let o := o.closeLeaf
  let quoted := 0 < count && o.levels.head?.any (·.frame.isQuote)
  (closeLevels count { o with blank := o.blank && !quoted }).addBlank

/-- Reads a line that begins a block, with all blocks before it closed. -/
def begin (o : Outline) (line : Line) : Outline :=
  if line.isEmpty then { o with leaf := .closed, blank := true }
  else if 4 ≤ line.indent then { o with leaf := .indented [line.skip 4] [] }
  else
    match headingLine? line, fenceLine? line with
    | some (depth, text), _ => { o with leaf := .closed }.addNode (rawNode (.heading depth) text)
    | none, some fence => { o with leaf := .fenced fence [] }
    | none, none =>
      if isBreakLine line then { o with leaf := .closed }.addNode (.void .thematicBreak)
      else { o with leaf := .paragraph [line] }

/-- Reads a line behind those of a paragraph. An underline makes a heading of the paragraph, but if
that has only definitions it is a text itself. -/
def afterParagraph (o : Outline) (lines : List Line) (line : Line) : Outline :=
  match lines.head?.bind (tableStart? · line) with
  | some align =>
    { (if lines.length ≤ 1 then o else { o with leaf := .paragraph (lines.drop 1) }.closeLeaf) with
      leaf := .table align (lines.take 1) }
  | none =>
    match underline? line with
    | some depth =>
      if line.indent ≤ 3 then
        let (o, found) := o.addText (.heading depth) lines
        { o with leaf := if found then .underlined else .paragraph [line] }
      else { o with leaf := .paragraph (line :: lines) }
    | none =>
      if line.isEmpty || interrupts line then o.closeLeaf.begin line
      else { o with leaf := .paragraph (line :: lines) }

/-- Reads a line that goes on with all open containers and opens none. -/
def extend (o : Outline) (line : Line) : Outline :=
  match o.leaf with
  | .closed => o.addBlank.begin line
  | .underlined =>
    if line.indent ≤ 3 && (underline? line).isSome then { o with leaf := .paragraph [line] }
    else o.begin line
  | .paragraph lines => o.afterParagraph lines line
  | .fenced fence lines =>
    if fence.isClosedBy line then o.closeLeaf
    else { o with leaf := .fenced fence (line.skip fence.indent :: lines) }
  | .indented lines blanks =>
    if line.isEmpty then { o with leaf := .indented lines (line.skip 4 :: blanks) }
    else if 4 ≤ line.indent then { o with leaf := .indented (line.skip 4 :: blanks ++ lines) [] }
    else o.closeLeaf.addBlank.begin line
  | .table align rows =>
    if line.isEmpty || 4 ≤ line.indent || interrupts line then o.closeLeaf.begin line
    else { o with leaf := .table align (line :: rows) }

/-- The open containers that go on with a line, the outermost one first, and the line within them.
The levels are those of the open containers, the outermost one first. -/
def continued : List Level → Line → List Level × Line
  | [], line => ([], line)
  | level :: inner, line =>
    match level.frame.next? line with
    | none => ([], line)
    | some (frame, rest) =>
      let (levels, rest) := continued inner rest
      ({ level with frame } :: levels, rest)

/-- Opens some containers, the outermost one first. -/
def openLevels (o : Outline) (frames : List Frame) : Outline :=
  { o with levels := (frames.reverse.map fun frame ↦ ⟨frame, []⟩) ++ o.levels }

/-- Reads a line. -/
def read (o : Outline) (line : Line) : Outline :=
  let (levels, rest) := continued o.levels.reverse line
  let lost := o.levels.length - levels.length
  let o := { o with levels := o.levels.take lost ++ levels.reverse }
  let (frames, inner) :=
    if lost = 0 && o.leaf.isVerbatim then ([], rest)
    else Frame.openAll (lost = 0 && o.leaf.isParagraph) rest.text.length rest
  match frames.getLast? with
  | some frame =>
    let o := ((o.close lost).openLevels frames).begin inner
    { o with blank := o.blank && !frame.isBare }
  | none =>
    if lost = 0 then o.extend rest
    else if o.leaf.isOpenText && !rest.isEmpty && !interrupts rest then
      { o with leaf := o.leaf.withText rest }
    else (o.close lost).begin rest

/-- The nodes of the document. -/
def nodes (o : Outline) : List Markdown :=
  (Gathered.ofEntries (o.close o.levels.length).entries).close

end Outline

/-- The nodes of a document that has some lines. -/
def blocks (lines : List Line) : List Markdown := (lines.foldl Outline.read .empty).nodes

/-- The metadata before a document, between lines of three marks, and the lines behind it. -/
def frontMatter? (lines : List Line) : Option (Markdown × List Line) :=
  let fenced (mark : Char) (kind : Literal) : Option (Markdown × List Line) :=
    let isFence (line : Line) : Bool := line.text.take 3 == [mark, mark, mark]
      && (line.text.drop 3).all isSpaceOrTab
    match lines with
    | [] => none
    | line :: rest =>
      if isFence line then
        let inside := rest.takeWhile fun l ↦ !isFence l
        if inside.length < rest.length then
          some (.literal kind (String.ofList (joinLines inside)), rest.drop (inside.length + 1))
        else none
      else none
  fenced '-' .yaml <|> fenced '+' .toml

end DocSelect.Markdown
