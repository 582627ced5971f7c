import DocSelect.Readers.Markdown.Table

/-!
# Blocks and containers

Quotes and list items are containers. What a container holds is known entry by entry while its
lines are read, and becomes its nodes when it is closed: items of one mark that stand next to
each other are put in a list, and gaps tell which lists and items are spread.
-/

namespace DocSelect.Markdown

/-- What a container holds: nodes, list items with their marks, and gaps where a line is blank. -/
inductive Entry where
  | node (node : Markdown)
  | item (mark : ItemMark) (node : Markdown)
  | gap

/-- The nodes behind a place in a container. Items at the place are kept out of a list as long as
others of their mark may come before them. A gap at the place is one between such items, or one
of the container itself, which makes the container spread. -/
structure Gathered where
  list : Option (ItemMark × Bool × List Markdown)
  gap : Bool
  spread : Bool
  nodes : List Markdown

namespace Gathered

/-- The nodes behind the end of a container. -/
def empty : Gathered := ⟨none, false, false, []⟩

/-- The nodes behind the place, with the items at the place in a list. -/
def close (g : Gathered) : List Markdown :=
  match g.list with
  | none => g.nodes
  | some (mark, spread, items) =>
    .container (.list mark.start.isSome mark.start spread) items :: g.nodes

/-- Whether there are gaps behind the place that are not between the items of a list. -/
def isSpread (g : Gathered) : Bool := g.gap || g.spread

/-- Puts an entry before the place. A list is spread if there is a gap between two items. -/
def add (g : Gathered) : Entry → Gathered
  | .gap => { g with gap := true }
  | .node m => ⟨none, false, g.isSpread, m :: g.close⟩
  | .item mark m =>
    match g.list with
    | some (mark', spread, items) =>
      if mark.mark = mark'.mark then
        ⟨some (mark, g.gap || spread, m :: items), false, g.spread, g.nodes⟩
      else ⟨some (mark, false, [m]), false, g.isSpread, g.close⟩
    | none => ⟨some (mark, false, [m]), false, g.isSpread, g.nodes⟩

/-- What a container holds that holds some entries, the last one first. -/
def ofEntries (entries : List Entry) : Gathered := entries.foldl add empty

end Gathered

/-- A container: a quote, or a list item. An item is bare as long as there is nothing but a blank
behind its mark. -/
inductive Frame where
  | quote
  | item (mark : ItemMark) (bare : Bool)

namespace Frame

/-- The container that goes on with a line, and the line within it. A bare item does not go on
with a second blank line. -/
def next? (frame : Frame) (line : Line) : Option (Frame × Line) :=
  match frame with
  | quote => (quoteLine? line).map fun rest ↦ (quote, rest)
  | item mark bare =>
    if line.isEmpty then if bare then none else some (frame, line.skip mark.width)
    else if mark.width ≤ line.indent then some (item mark false, line.skip mark.width)
    else none

/-- The container that a line opens, and the line within it. -/
def open? (interrupting : Bool) (line : Line) : Option (Frame × Line) :=
  match quoteLine? line with
  | some rest => some (quote, rest)
  | none =>
    (if interrupting then interruptingItem? line else itemLine? line).map fun (mark, rest) ↦
      (item mark rest.isEmpty, rest)

/-- All containers that a line opens, the outermost one first, and the line within them. Every
container takes a mark, so that there are no more of them than characters in the line. -/
def openAll (interrupting : Bool) : (steps : Nat) → Line → List Frame × Line
  | 0, line => ([], line)
  | steps + 1, line =>
    match open? interrupting line with
    | none => ([], line)
    | some (frame, rest) =>
      let (frames, rest) := openAll false steps rest
      (frame :: frames, rest)

/-- Whether a container is a quote. -/
def isQuote : Frame → Bool
  | quote => true
  | item _ _ => false

/-- Whether a container is an item with nothing behind its mark. -/
def isBare : Frame → Bool
  | quote => false
  | item _ bare => bare

/-- The entry of a container that holds some entries, the last one first. -/
def toEntry (entries : List Entry) (frame : Frame) : Entry :=
  let inside := Gathered.ofEntries entries
  match frame with
  | quote => .node (.container .blockquote inside.close)
  | item mark _ => .item mark (.container (.listItem inside.isSpread none) inside.close)

end Frame

end DocSelect.Markdown
