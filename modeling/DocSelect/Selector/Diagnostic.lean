import DocSelect.Selector.ParseError
import DocSelect.Text.Quoted

/-!
# Pointing at errors

A diagnostic shows the line of a text that an error starts in, with a mark under the bytes it
is about, and the message below. Lines and columns count from one; a line feed ends a line, a
carriage return and a line feed count as one break, and any other carriage return is a column.
-/

namespace DocSelect

namespace Diagnostic

/-- The text behind a number of bytes, if these bytes end between two characters. -/
def dropBytes? : Nat → List Char → Option (List Char)
  | 0, cs => some cs
  | _ + 1, [] => none
  | n + 1, c :: cs => if c.utf8Size ≤ n + 1 then dropBytes? (n + 1 - c.utf8Size) cs else none

/-- The text before a number of bytes. -/
def takeBytes : Nat → List Char → List Char
  | 0, _ => []
  | _ + 1, [] => []
  | n + 1, c :: cs => c :: takeBytes (n + 1 - c.utf8Size) cs

/-- Whether a range of bytes lies within a text and ends between characters on both sides. -/
def fits (text : List Char) (span : Span) : Bool :=
  span.start ≤ span.stop && (dropBytes? span.start text).isSome
    && (dropBytes? span.stop text).isSome

/-- A line and a column, both counted from one. -/
structure Place where
  line : Nat
  column : Nat
deriving DecidableEq, Repr

/-- The place behind some text. -/
def placeAfter (text : List Char) : Place :=
  go ⟨1, 1⟩ text
where
  /-- The place behind some more text. -/
  go (at' : Place) : List Char → Place
    | [] => at'
    | '\r' :: '\n' :: cs => go ⟨at'.line + 1, 1⟩ cs
    | '\n' :: cs => go ⟨at'.line + 1, 1⟩ cs
    | _ :: cs => go ⟨at'.line, at'.column + 1⟩ cs

/-- The place where a range ends. A range that ends at the start of a line is taken to end
behind the last character before. -/
def placeOfEnd (before : List Char) : Place :=
  let place := placeAfter before
  if place.column = 1 then
    let last := placeAfter before.dropLast
    ⟨last.line, last.column + 1⟩
  else place

/-- The text of a line up to and including its line feed. -/
def lineOf (cs : List Char) : List Char :=
  match cs with
  | [] => []
  | c :: t => if c = '\n' then [c] else c :: lineOf t

/-- The part of the current line that was passed; `before` holds the text passed. -/
def lineSoFar (before : List Char) : List Char :=
  (before.reverse.takeWhile (· != '\n')).reverse

private theorem length_lineOf_pos (c : Char) (cs : List Char) : 0 < (lineOf (c :: cs)).length := by
  unfold lineOf
  split <;> simp

/-- The lines that a range covers, the first of them in full. `before` is the text passed,
`rest` the text left, and `size` the number of bytes of the range that are left. -/
def coveredFrom (first : Bool) (before rest : List Char) (size : Nat) : List (List Char) :=
  match rest with
  | [] => []
  | c :: t =>
    if size = 0 && !first then []
    else
      let line := lineOf (c :: t)
      (lineSoFar before ++ line)
        :: coveredFrom false (before ++ line) ((c :: t).drop line.length)
          (size - Text.byteLength line)
termination_by rest.length
decreasing_by
  have := length_lineOf_pos c t
  simp only [List.length_drop, List.length_cons]
  omega

/-- Shows line breaks as pictures. -/
def showBreaks (cs : List Char) : List Char :=
  cs.map fun c ↦ if c = '\r' then '␍' else if c = '\n' then '␊' else c

/-- Leaves line breaks out. -/
def hideBreaks (cs : List Char) : List Char := cs.filter fun c ↦ c != '\r' && c != '\n'

/-- Whether a character breaks a line. -/
def isBreak (c : Char) : Bool := c == '\n' || c == '\r'

/-- The blanks before the mark, as wide as the text above them. -/
def underlineMargin (line : List Char) (width : Nat) : List Char :=
  (line.take width).map fun c ↦ if c = '\t' then '\t' else ' '

/-- The mark under the columns from `start` to `stop`. -/
def underline (line : List Char) (start stop : Nat) : List Char :=
  let (a, b) := if start > stop then (stop - 1, start + 1) else (start, stop)
  underlineMargin line (a - 1) ++ '^' ::
    (if b - a > 1 then List.replicate (b - a - 2) '-' ++ ['^'] else [])

/-- A number in base ten, with blanks before it up to a width. -/
def padNumber (width n : Nat) : List Char :=
  let ds := Nat.toDigits 10 n
  List.replicate (width - ds.length) ' ' ++ ds

end Diagnostic

open Diagnostic in
/-- An error shown against a text. If the span does not fit the text, the message stands alone. -/
def ParseError.describe (e : ParseError) (source : String) : String :=
  let text := source.toList
  if fits text e.span then
    let before := takeBytes e.span.start text
    let rest := (dropBytes? e.span.start text).getD []
    let within := takeBytes (e.span.stop - e.span.start) rest
    let start := placeAfter before
    let stop := placeOfEnd (takeBytes e.span.stop text)
    let visible := within.head?.any isBreak || within.tail.getLast?.any isBreak
    let lines := coveredFrom true before rest (Text.byteLength within)
    let first := if visible then showBreaks (lines.headD []) else hideBreaks (lines.headD [])
    let last := lines.tail.getLast?.map fun line ↦ if visible then line else showBreaks line
    let width := (Nat.toDigits 10 (max start.line stop.line)).length
    let margin := List.replicate width ' '
    let number (n : Nat) : List Char := Nat.toDigits 10 n
    let bar := margin ++ [' ', '|']
    let numbered (n : Nat) (line : List Char) : List Char :=
      (if last.isSome then padNumber width n else number n) ++ [' ', '|', ' '] ++ line
    let gap := if stop.line - start.line > 1 then bar ++ " ...\n".toList else []
    let lastLines := last.elim [] fun line ↦ gap ++ numbered stop.line line ++ ['\n']
    String.ofList <|
      margin ++ "--> ".toList ++ number start.line ++ [':'] ++ number start.column ++ ['\n']
        ++ bar ++ ['\n']
        ++ numbered start.line first ++ ['\n']
        ++ lastLines
        ++ bar ++ [' '] ++ underline first start.column stop.column ++ ['\n']
        ++ bar ++ ['\n']
        ++ margin ++ " = ".toList ++ e.kind.message.toList
  else e.kind.message

end DocSelect
