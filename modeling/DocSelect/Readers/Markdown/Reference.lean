import DocSelect.Markdown.Basic
import DocSelect.Readers.Markdown.Line
import DocSelect.Readers.Markdown.Punctuation
import DocSelect.Readers.Markdown.Uppercase

/-!
# Labels, addresses and definitions

A link names its address, and a title if it has one, in parentheses behind it, or it has a label
that a definition elsewhere gives them for. Labels are compared by their identifiers, which
leave aside case and the amount of blanks. Every reader takes the text from its first character
on and hands back what stands behind.
-/

namespace DocSelect.Markdown

/-- A text. -/
def ofText (cs : List Char) : Markdown := .literal .text (String.ofList cs)

/-- Text with the backslashes before marks of punctuation left out. -/
def unescape : List Char → List Char
  | '\\' :: c :: rest =>
    if Text.isAsciiPunctuation c then c :: unescape rest else '\\' :: unescape (c :: rest)
  | c :: rest => c :: unescape rest
  | [] => []

/-- The identifier of a label. Going by small, capital and again small letters brings letters
together that have the same capitals. -/
def identifierOf (label : List Char) : String :=
  let words := (label.splitOnP isGap).filter fun word ↦ !word.isEmpty
  Text.lowercase (Text.uppercase (Text.lowercase (String.ofList ([' '].intercalate words))))

/-- The text that a label or a title shows. -/
def shownText (cs : List Char) : String := String.ofList (unescape (trimLines cs))

/-- The text up to a mark that is not escaped, and the text behind the mark. Characters that are
`barred` must not stand in between unless they are escaped. -/
def untilMark (mark : Char) (barred : Char → Bool) :
    List Char → Option (List Char × List Char)
  | [] => none
  | '\\' :: c :: rest =>
    if Text.isAsciiPunctuation c then
      (untilMark mark barred rest).map fun (a, b) ↦ ('\\' :: c :: a, b)
    else (untilMark mark barred (c :: rest)).map fun (a, b) ↦ ('\\' :: a, b)
  | c :: rest =>
    if c = mark then some ([], rest)
    else if barred c then none
    else (untilMark mark barred rest).map fun (a, b) ↦ (c :: a, b)

/-- The label that a bracket before the text opens. -/
def label? (cs : List Char) : Option (List Char × List Char) :=
  (untilMark ']' (· == '[') cs).filter fun (label, _) ↦
    label.length ≤ 999 && label.any (!isGap ·)

/-- Characters that no address holds unless it is in angle brackets. -/
def endsAddress (c : Char) : Bool :=
  isGap c || (0 < c.toNat && c.toNat < 0x20) || c.toNat = 0x7F

/-- An address without angle brackets. Its parentheses are balanced or escaped, and no more than
`limit` of them are open at a time. -/
def bareAddress? (limit : Option Nat) (depth : Nat) :
    List Char → Option (List Char × List Char)
  | [] => if depth = 0 then some ([], []) else none
  | '\\' :: c :: rest =>
    if Text.isAsciiPunctuation c then
      (bareAddress? limit depth rest).map fun (a, b) ↦ ('\\' :: c :: a, b)
    else (bareAddress? limit depth (c :: rest)).map fun (a, b) ↦ ('\\' :: a, b)
  | '(' :: rest =>
    if limit.all (depth < ·) then
      (bareAddress? limit (depth + 1) rest).map fun (a, b) ↦ ('(' :: a, b)
    else none
  | ')' :: rest =>
    match depth with
    | 0 => some ([], ')' :: rest)
    | depth + 1 => (bareAddress? limit depth rest).map fun (a, b) ↦ (')' :: a, b)
  | c :: rest =>
    if endsAddress c then if depth = 0 && isGap c then some ([], c :: rest) else none
    else (bareAddress? limit depth rest).map fun (a, b) ↦ (c :: a, b)

/-- An address, which may be empty only in angle brackets. -/
def address? (limit : Option Nat) (cs : List Char) : Option (String × List Char) :=
  let found :=
    match cs with
    | '<' :: rest => untilMark '>' (fun c ↦ c == '<' || isLineEnd c) rest
    | _ => (bareAddress? limit 0 cs).filter fun (a, _) ↦ !a.isEmpty
  found.map fun (a, rest) ↦ (String.ofList (unescape a), rest)

/-- A title behind an address and some blanks. An empty title is none. -/
def title? (cs : List Char) : Option (Option String × List Char) :=
  let close (mark : Char) (rest : List Char) : Option (Option String × List Char) :=
    (untilMark mark (fun _ ↦ false) rest).map fun (a, b) ↦
      (if a.isEmpty then none else some (shownText a), b)
  if cs.head?.any isGap then
    match skipGap cs with
    | '"' :: rest => close '"' rest
    | '\'' :: rest => close '\'' rest
    | '(' :: rest => close ')' rest
    | _ => none
  else none

/-- The address and the title that a parenthesis before the text opens. -/
def resource? (cs : List Char) : Option (String × Option String × List Char) := do
  match skipGap cs with
  | ')' :: rest => return ("", none, rest)
  | cs =>
    let (url, rest) ← address? (some 32) cs
    let (title, rest) := (title? rest).getD (none, rest)
    match skipGap rest with
    | ')' :: rest => return (url, title, rest)
    | _ => none

/-- The text behind the line whose rest is blank. -/
def blankRest? (cs : List Char) : Option (List Char) :=
  match skipSpaces cs with
  | [] => some []
  | cs => lineEnd? cs

/-- A definition. It ends with a line; a title that the line goes on behind is not part of it. -/
def definition? (cs : List Char) : Option (Markdown × List Char) := do
  match skipSpaces cs with
  | '[' :: rest =>
    let (label, rest) ← label? rest
    match rest with
    | ':' :: rest =>
      let (url, rest) ← address? none (skipGap rest)
      let node (title : Option String) : Markdown :=
        .void (.definition url title (identifierOf label) (some (shownText label)))
      let titled := do
        let (title, rest) ← title? rest
        return (node title, ← blankRest? rest)
      titled <|> (blankRest? rest).map fun rest ↦ (node none, rest)
    | _ => none
  | _ => none

/-- The definitions that a text begins with, and the text behind them. A text has no more of
them than characters, which bound the steps. -/
def definitionsOf : (steps : Nat) → List Char → List Markdown × List Char
  | 0, cs => ([], cs)
  | steps + 1, cs =>
    match definition? cs with
    | some (m, rest) =>
      let (ms, rest) := definitionsOf steps rest
      (m :: ms, rest)
    | none => ([], cs)

end DocSelect.Markdown
