import DocSelect.Readers.Markdown.Reference

/-!
# Emphasis

Runs of asterisks, underscores and tildes may open or close emphasis, depending on the
characters beside them. A closing run is matched with the nearest opening run of its mark; two
marks on both sides make strong emphasis, and tildes make deleted text. Marks that find no match
are text.
-/

namespace DocSelect.Markdown

/-- A piece of inline text: a finished node, or a run of marks that may open or close emphasis. -/
inductive Piece where
  | node (node : Markdown)
  | run (mark : Char) (count : Nat) (opens closes : Bool)

/-- A mark of which runs may open or close emphasis. -/
def isMark (c : Char) : Bool := c == '*' || c == '_' || c == '~'

/-- Whether a run of marks leans on the character on one of its sides, `near`, with `far` on the
other side. A run may open emphasis if it leans on what is behind it, and close emphasis if it
leans on what is before it. Other marks are always leaned on, except by tildes. -/
def leansOn (mark : Char) (near far : Option Char) : Bool :=
  let white (c : Option Char) : Bool := c.all Text.isWhite
  let punctuation (c : Option Char) : Bool := c.any Text.isPunctuation
  (!white near && (!punctuation near || white far || punctuation far))
    || (mark != '~' && near.any isMark)

/-- A run of marks between two characters. Underscores within a word are not emphasis. -/
def runOf (mark : Char) (count : Nat) (before after : Option Char) : Piece :=
  let punctuation (c : Option Char) : Bool := c.any Text.isPunctuation
  let left := leansOn mark after before
  let right := leansOn mark before after
  if mark = '_' then
    .run mark count (left && (!right || punctuation before)) (right && (!left || punctuation after))
  else .run mark count left right

/-- The node of a run that was left over. -/
def Piece.toNode : Piece → Markdown
  | node m => m
  | run mark count _ _ => ofText (List.replicate count mark)

/-- Nodes with neighbouring texts joined. -/
def joinTexts : List Markdown → List Markdown
  | [] => []
  | .literal .text a :: rest =>
    match joinTexts rest with
    | .literal .text b :: rest => .literal .text (a ++ b) :: rest
    | rest => .literal .text a :: rest
  | m :: rest => m :: joinTexts rest

/-- The nodes of some pieces. -/
def nodesOf (pieces : List Piece) : List Markdown := joinTexts (pieces.map Piece.toNode)

/-- Whether a closing run of `count` marks can be matched with an opening run. Runs that could
both open and close must not add up to a multiple of three. -/
def pairs (mark : Char) (count : Nat) (opens : Bool) : Piece → Bool
  | .node _ => false
  | .run mark' count' opens' closes' =>
    mark == mark' && opens' &&
      (if mark = '~' then count == count' && count ≤ 2
       else !((closes' || opens) && count % 3 != 0 && (count + count') % 3 == 0))

/-- The number of marks that a match takes from both of its runs. -/
def marksTaken (mark : Char) (count count' : Nat) : Nat :=
  if mark = '~' then count else if 2 ≤ count && 2 ≤ count' then 2 else 1

private theorem marksTaken_pos {count : Nat} (h : count ≠ 0) (mark : Char) (count' : Nat) :
    0 < marksTaken mark count count' := by
  unfold marksTaken
  split
  · omega
  · split <;> omega

/-- The node that two matched runs make of the pieces between them. -/
def emphasize (mark : Char) (taken : Nat) (inside : List Piece) : Piece :=
  let kind : Container := if mark = '~' then .delete else if taken = 2 then .strong else .emphasis
  .node (.container kind (nodesOf inside))

/-- Matches a closing run with runs on the stack, nearest first, as long as marks are left, and
pushes what is left of it. -/
def closeRun (mark : Char) (opens : Bool) (stack : List Piece) (count : Nat) : List Piece :=
  if h : count = 0 then stack
  else
    let inside := stack.takeWhile fun p ↦ !pairs mark count opens p
    match stack.dropWhile fun p ↦ !pairs mark count opens p with
    | .run mark' count' opens' closes' :: below =>
      let taken := marksTaken mark count count'
      let left := if taken < count' then [Piece.run mark' (count' - taken) opens' closes'] else []
      have : count - taken < count := Nat.sub_lt (by omega) (marksTaken_pos h mark count')
      closeRun mark opens (emphasize mark taken inside.reverse :: left ++ below) (count - taken)
    | _ => .run mark count opens true :: stack
termination_by count

/-- Matches all runs of some pieces; the stack holds the pieces before, the last one first. -/
def pairRuns (stack : List Piece) : List Piece → List Piece
  | [] => stack.reverse
  | .node m :: rest => pairRuns (.node m :: stack) rest
  | .run mark count opens closes :: rest =>
    pairRuns
      (if closes then closeRun mark opens stack count else .run mark count opens false :: stack)
      rest

/-- The nodes of some pieces with all runs matched. -/
def emphasizedNodes (pieces : List Piece) : List Markdown := nodesOf (pairRuns [] pieces)

end DocSelect.Markdown
