import DocSelect.Readers.Markdown.Emphasis

/-!
# Inline Markdown

The text of a paragraph is read from its first character to its last. Code, escapes and line
breaks are finished nodes as soon as they are passed; runs of emphasis marks wait. A closing
bracket looks for the nearest opening bracket, and the pieces between them become the children
of a link, unless nothing behind or elsewhere says where the link leads. There are no links
within links, so an opening bracket around a link stays text.
-/

namespace DocSelect.Markdown

/-- What inline text is read under: the identifiers with definitions, and whether it is the text
of a table cell, where backslashes before bars are left out even in code. -/
structure Scope where
  definitions : List String
  inCell : Bool

/-- The character on both sides of the text, which emphasis at its ends depends on. -/
def Scope.border (scope : Scope) : Option Char := if scope.inCell then some '|' else none

/-- What brackets around a text stand for: an address and a title, or a reference by a label. -/
inductive Target where
  | direct (url : String) (title : Option String)
  | reference (kind : ReferenceKind) (label : List Char)

/-- What brackets around `inside` stand for, with `rest` behind them, and the text behind all
of it. References need a definition, and brackets before another label need that label. -/
def Scope.target? (scope : Scope) (inside rest : List Char) : Option (Target × List Char) :=
  let reference (kind : ReferenceKind) (label rest : List Char) : Option (Target × List Char) :=
    if scope.definitions.contains (identifierOf label) then some (.reference kind label, rest)
    else none
  match rest with
  | '(' :: behind =>
    match resource? behind with
    | some (url, title, behind) => some (.direct url title, behind)
    | none => reference .shortcut inside rest
  | '[' :: ']' :: behind => reference .collapsed inside behind
  | '[' :: behind => (label? behind).bind fun (label, behind) ↦ reference .full label behind
  | _ => reference .shortcut inside rest

mutual
/-- The text of a node. -/
def plainText : Markdown → String
  | .container _ children => plainTexts children
  | .literal _ value => value
  | .void _ => ""

/-- The texts of some nodes. -/
def plainTexts : List Markdown → String
  | [] => ""
  | m :: ms => plainText m ++ plainTexts ms
end

/-- The label that a reference shows. Without a label of its own it shows its text. -/
def shownLabel (kind : ReferenceKind) (label : List Char) (children : List Markdown) : String :=
  if kind = .full then shownText label else plainTexts children

/-- The node of a link. -/
def linkOf (children : List Markdown) : Target → Markdown
  | .direct url title => .container (.link url title) children
  | .reference kind label =>
    .container (.linkReference kind (identifierOf label) (some (shownLabel kind label children)))
      children

/-- The node of an image, whose alternative text is the text between its brackets. -/
def imageOf (children : List Markdown) : Target → Markdown
  | .direct url title => .void (.image url (plainTexts children) title)
  | .reference kind label =>
    .void (.imageReference (plainTexts children) kind (identifierOf label)
      (some (shownLabel kind label children)))

/-- Text with the backslashes before bars left out. -/
def unescapeBars : List Char → List Char
  | '\\' :: '|' :: rest => '|' :: unescapeBars rest
  | c :: rest => c :: unescapeBars rest
  | [] => []

/-- The code of a code span. One space at both ends goes unless there are only spaces. -/
def codeOf (cs : List Char) : List Char :=
  if cs.head? == some ' ' && cs.getLast? == some ' ' && cs.any (· != ' ') then
    (cs.drop 1).dropLast
  else cs

/-- The text up to a run of exactly `count` backticks, which it includes, and the text behind
them. The number of backticks passed since the last other character is `run`. -/
def untilTicks (count : Nat) (run : Nat) : List Char → Option (List Char × List Char)
  | [] => if run = count then some ([], []) else none
  | '`' :: rest => (untilTicks count (run + 1) rest).map fun (a, b) ↦ ('`' :: a, b)
  | c :: rest =>
    if run = count then some ([], c :: rest)
    else (untilTicks count 0 rest).map fun (a, b) ↦ (c :: a, b)

/-- A code span from behind its opening backticks. -/
def Scope.codeSpan? (scope : Scope) (count : Nat) (cs : List Char) :
    Option (Markdown × List Char) :=
  (untilTicks count 0 cs).map fun (a, rest) ↦
    let code := a.take (a.length - count)
    let code := codeOf (if scope.inCell then unescapeBars code else code)
    (.literal .inlineCode (String.ofList code), rest)

/-- A bracket that is still open: whether it is that of an image, whether it can be that of a
link, the pieces before it, the last one first, and the text behind it. -/
structure Bracket where
  image : Bool
  active : Bool
  before : List Piece
  source : List Char

/-- The text of a bracket that nothing closes. -/
def Bracket.toPiece (b : Bracket) : Piece := .node (ofText (if b.image then ['!', '['] else ['[']))

/-- How far inline text is read: the pieces behind the last open bracket, the last one first, the
open brackets, the last one first, and the character passed last. -/
structure Scan where
  pieces : List Piece
  brackets : List Bracket
  last : Option Char

namespace Scan

/-- A scan that has passed nothing yet, of a text behind some character. -/
def start (before : Option Char) : Scan := ⟨[], [], before⟩

/-- Adds a piece that ends in a character. -/
def push (s : Scan) (piece : Piece) (last : Char) : Scan :=
  { s with pieces := piece :: s.pieces, last := some last }

/-- Adds a text. -/
def pushText (s : Scan) (cs : List Char) : Scan :=
  { s with pieces := .node (ofText cs) :: s.pieces, last := cs.getLast? }

/-- Adds a line break or a line end, which leaves out the blanks behind it. -/
def pushLineEnd (s : Scan) (node : Markdown) (rest : List Char) : Scan × List Char :=
  (s.push (.node node) '\n', skipSpaces rest)

/-- Opens a bracket. -/
def openBracket (s : Scan) (image : Bool) (rest : List Char) : Scan :=
  ⟨[], ⟨image, true, s.pieces, rest⟩ :: s.brackets, some '['⟩

/-- Turns the last open bracket into text. -/
def dropBracket (s : Scan) : Scan :=
  match s.brackets with
  | [] => s
  | b :: outer => { s with pieces := s.pieces ++ b.toPiece :: b.before, brackets := outer }

/-- Turns all open brackets into text. -/
def dropBrackets (pieces : List Piece) : List Bracket → List Piece
  | [] => pieces
  | b :: outer => dropBrackets (pieces ++ b.toPiece :: b.before) outer

/-- Closes the last open bracket, with `rest` behind the closing one. -/
def closeBracket (scope : Scope) (s : Scan) (rest : List Char) : Scan × List Char :=
  let plain := (s.dropBracket.pushText [']'], rest)
  match s.brackets with
  | [] => plain
  | b :: outer =>
    if b.active then
      match scope.target? (b.source.take (b.source.length - (rest.length + 1))) rest with
      | none => plain
      | some (target, behind) =>
        let children := emphasizedNodes s.pieces.reverse
        let last := match target with
          | .direct _ _ => ')'
          | .reference _ _ => ']'
        if b.image then
          (⟨.node (imageOf children target) :: b.before, outer, some last⟩, behind)
        else
          let outer := outer.map fun o ↦ { o with active := o.active && o.image }
          (⟨.node (linkOf children target) :: b.before, outer, some last⟩, behind)
    else plain

/-- Whether a character never means more than itself in inline text. -/
def isPlain (c : Char) : Bool :=
  !isGap c && c != '\\' && c != '`' && c != '!' && c != '[' && c != ']' && !isMark c

/-- Reads what begins with the character `c`, with `rest` behind it. -/
def step (scope : Scope) (s : Scan) (c : Char) (rest : List Char) : Scan × List Char :=
  let run := (c :: rest).takeWhile (· == c)
  let behindRun := (c :: rest).dropWhile (· == c)
  if c = '\\' then
    match lineEnd? rest, rest with
    | some behind, _ => s.pushLineEnd (.void .lineBreak) behind
    | none, d :: behind =>
      if Text.isAsciiPunctuation d then (s.pushText [d], behind) else (s.pushText [c], rest)
    | none, [] => (s.pushText [c], rest)
  else if c = '`' then
    match scope.codeSpan? run.length behindRun with
    | some (code, behind) => (s.push (.node code) c, behind)
    | none => (s.pushText run, behindRun)
  else if c = '!' then
    match rest with
    | '[' :: behind => (s.openBracket true behind, behind)
    | _ => (s.pushText [c], rest)
  else if c = '[' then (s.openBracket false rest, rest)
  else if c = ']' then s.closeBracket scope rest
  else if isMark c then
    (s.push (runOf c run.length s.last (behindRun.head?.or scope.border)) c, behindRun)
  else if isSpaceOrTab c then
    let spaces := c :: rest.takeWhile isSpaceOrTab
    let behind := skipSpaces rest
    match lineEnd? behind with
    | some next =>
      if 2 ≤ spaces.length && spaces.all (· == ' ') then s.pushLineEnd (.void .lineBreak) next
      else (s, behind)
    | none => if behind.isEmpty then (s, behind) else (s.pushText spaces, behind)
  else
    match lineEnd? (c :: rest) with
    | some next => s.pushLineEnd (ofText ((c :: rest).take (rest.length + 1 - next.length))) next
    | none =>
      let plain := c :: rest.takeWhile isPlain
      (s.pushText plain, rest.dropWhile isPlain)

/-- Reads a text. Every step passes a character, so that a text needs no more steps than it has
characters. -/
def run (scope : Scope) : (steps : Nat) → Scan → List Char → Scan
  | 0, s, _ => s
  | _, s, [] => s
  | steps + 1, s, c :: rest =>
    let (s, rest) := s.step scope c rest
    run scope steps s rest

/-- The nodes of all that was read. -/
def nodes (s : Scan) : List Markdown := emphasizedNodes (dropBrackets s.pieces s.brackets).reverse

end Scan

/-- The nodes of inline text that goes on behind some character. -/
def inlinesBehind (scope : Scope) (before : Option Char) (text : List Char) : List Markdown :=
  ((Scan.start before).run scope text.length text).nodes

/-- The nodes of inline text, whose first blanks are left out. -/
def inlines (scope : Scope) (text : List Char) : List Markdown :=
  inlinesBehind scope (if text.head?.any isSpaceOrTab then text.head? else scope.border)
    (skipSpaces text)

end DocSelect.Markdown
