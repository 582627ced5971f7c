import DocSelect.Selector.ParseError
import DocSelect.Text.Blank
import DocSelect.Text.CodePoint

/-!
# Names, strings and raw text within selectors

The smallest parts of selector text. A name consists of ASCII letters, digits, hyphens,
underscores and escapes; a string is quoted; raw text runs up to a closing delimiter. In each
a backslash before digits in base sixteen names a character by its number, with one optional
space behind it, and two such escapes may form a surrogate pair.
-/

namespace DocSelect

namespace Lexeme

open Text (AtMost isHexDigit hexNumber)

/-- What a reader takes: a value and the text behind it. -/
abbrev Taken (α : Type) (n : Nat) := Except Problem (α × AtMost n)

/-- A character that begins a name. -/
def isNameStart (c : Char) : Bool := c.isAlpha || c == '-' || c == '_'

/-- A character that goes on with a name. -/
def isNameChar (c : Char) : Bool := c.isAlphanum || c == '-' || c == '_'

/-- The punctuation that a backslash turns into a part of a name. -/
def isSpecial (c : Char) : Bool := "!\"#$%&'()*+,./;<=>?@[\\]^`\x7b|\x7d~".toList.contains c

/-- At most `n` leading digits in base sixteen, and the text behind them. -/
def takeHex : Nat → (cs : List Char) → List Char × AtMost cs.length
  | 0, cs => ([], .whole cs)
  | _, [] => ([], .whole [])
  | n + 1, c :: cs =>
    if isHexDigit c then
      let (ds, rest) := takeHex n cs
      (c :: ds, .behind rest)
    else ([], .whole (c :: cs))

/-- Text without one leading space. -/
def skipSpace (cs : List Char) : AtMost cs.length :=
  match cs with
  | ' ' :: t => .tail t
  | cs => .whole cs

/-- At most six digits and one optional space behind them. -/
def hexEscapeDigits (cs : List Char) : List Char × AtMost cs.length :=
  let (ds, rest) := takeHex 6 cs
  let rest' := skipSpace rest.1
  (ds, .within rest rest')

/-- The number of the second half of a pair that is written as an escape, if one is next. -/
def lowSurrogate? (cs : List Char) : Option (Nat × AtMost cs.length) :=
  match cs with
  | '\\' :: d :: t =>
    if isHexDigit d then
      let (ds, rest) := hexEscapeDigits (d :: t)
      let low := hexNumber ds
      if Text.isLowSurrogate low then some (low, .behind rest) else none
    else none
  | _ => none

/-- The character of an escape by number, from behind its backslash. -/
def hexEscape (cs : List Char) : Taken Char cs.length :=
  let (ds, rest) := hexEscapeDigits cs
  let number := hexNumber ds
  let invalid : Problem := ⟨.invalidEscape (String.ofList ds), '\\' :: cs, rest.1⟩
  match if Text.isHighSurrogate number then lowSurrogate? rest.1 else none with
  | some (low, rest') =>
    match Text.charOfCodePoint? (Text.joinSurrogates number low) with
    | some c => .ok (c, .within rest rest')
    | none => .error invalid
  | none =>
    match Text.charOfCodePoint? number with
    | some c => .ok (c, rest)
    | none => .error invalid

/-- The character of an escape outside of strings, from behind its backslash. A character that
is no digit in base sixteen stands for itself. -/
def escaped (cs : List Char) : Taken Char cs.length :=
  match cs with
  | [] => .error (.here (.unexpectedEnd .escapedCharacter) [])
  | c :: t => if isHexDigit c then hexEscape (c :: t) else .ok (c, .tail t)

/-- The characters of a name, which may be none. -/
def name (cs : List Char) : Taken (List Char) cs.length :=
  match cs with
  | [] => .ok ([], .whole [])
  | '\\' :: t => do
    let (c, ⟨rest, h⟩) ← escaped t
    let (more, ⟨rest', h'⟩) ← name rest
    return (c :: more, ⟨rest', Nat.le_trans h' (Nat.le_succ_of_le h)⟩)
  | c :: t =>
    if isNameChar c then do
      let (more, ⟨rest, h⟩) ← name t
      return (c :: more, ⟨rest, Nat.le_succ_of_le h⟩)
    else .ok ([], .whole (c :: t))
termination_by cs.length
decreasing_by
  · exact Nat.lt_succ_of_le h
  · exact Nat.lt_succ_self _

/-- A name of at least one character, behind the mark that calls for it. -/
def requiredName (mark : Char) (cs : List Char) : Taken String cs.length := do
  let (chars, rest) ← name cs
  if chars.isEmpty then
    .error (.here (if rest.1.isEmpty then .unexpectedEnd .identifier else .emptyIdentifier mark)
      rest.1)
  else return (String.ofList chars, rest)

/-- The escapes of one letter within a string. -/
def shortEscape? (quote c : Char) : Option Char :=
  if c = 'n' then some '\n'
  else if c = 'r' then some '\r'
  else if c = 't' then some '\t'
  else if c = 'f' then some '\x0c'
  else if c = '\\' then some '\\'
  else if c = quote then some quote
  else none

/-- The characters of a string from behind its opening quote. `whole` is the text from that
quote on, which is where a string that is never closed is reported. -/
def stringTail (quote : Char) (whole cs : List Char) : Taken (List Char) cs.length :=
  match cs with
  | [] => .error ⟨.unterminatedString quote, whole, []⟩
  | c :: t =>
    if c = quote then .ok ([], .tail t)
    else if c = '\\' then
      match t with
      | [] => .error ⟨.unterminatedString quote, whole, []⟩
      | e :: u =>
        if isHexDigit e && (shortEscape? quote e).isNone then do
          let (x, ⟨rest, h⟩) ← hexEscape (e :: u)
          let (more, ⟨rest', h'⟩) ← stringTail quote whole rest
          return (x :: more, ⟨rest', Nat.le_trans h' (Nat.le_succ_of_le h)⟩)
        else do
          let (more, ⟨rest, h⟩) ← stringTail quote whole u
          return ((shortEscape? quote e).getD e :: more,
            ⟨rest, Nat.le_succ_of_le (Nat.le_succ_of_le h)⟩)
    else do
      let (more, ⟨rest, h⟩) ← stringTail quote whole t
      return (c :: more, ⟨rest, Nat.le_succ_of_le h⟩)
termination_by cs.length
decreasing_by
  · exact Nat.lt_succ_of_le h
  · simp only [List.length_cons]; omega
  · exact Nat.lt_succ_self _

/-- A string with its quotes, from its opening quote on. -/
def string (quote : Char) (t : List Char) : Taken String (t.length + 1) := do
  let (chars, ⟨rest, h⟩) ← stringTail quote (quote :: t) t
  return (String.ofList chars, ⟨rest, Nat.le_succ_of_le h⟩)

/-- A character of raw text, and whether it was written with a backslash. -/
structure RawChar where
  char : Char
  escaped : Bool
deriving DecidableEq, Repr

/-- A blank that was written as itself does not count at the ends of raw text. -/
def RawChar.isBlank (c : RawChar) : Bool := !c.escaped && Text.isBlank c.char

/-- The raw text up to a closing parenthesis, or up to the end. -/
def rawChars (cs : List Char) : Taken (List RawChar) cs.length :=
  match cs with
  | [] => .ok ([], .whole [])
  | c :: t =>
    if c = ')' then .ok ([], .whole (c :: t))
    else if c = '\\' then do
      let (x, ⟨rest, h⟩) ← escaped t
      let (more, ⟨rest', h'⟩) ← rawChars rest
      return (⟨x, true⟩ :: more, ⟨rest', Nat.le_trans h' (Nat.le_succ_of_le h)⟩)
    else do
      let (more, ⟨rest, h⟩) ← rawChars t
      return (⟨c, false⟩ :: more, ⟨rest, Nat.le_succ_of_le h⟩)
termination_by cs.length
decreasing_by
  · exact Nat.lt_succ_of_le h
  · exact Nat.lt_succ_self _

/-- Raw characters without the blanks at both ends. -/
def trimRaw (raw : List RawChar) : List RawChar :=
  ((raw.dropWhile RawChar.isBlank).reverse.dropWhile RawChar.isBlank).reverse

/-- The text of an argument without quotes. -/
def rawArgument (cs : List Char) : Taken String cs.length := do
  let (raw, rest) ← rawChars cs
  return (String.ofList ((trimRaw raw).map RawChar.char), rest)

/-- The text of an attribute value without quotes: all up to the closing bracket, or up to the
end, without the white space around it. -/
def rawValue (cs : List Char) : String × AtMost cs.length :=
  (String.ofList (Text.trim (cs.takeWhile (· != ']'))),
    ⟨cs.dropWhile (· != ']'), (List.dropWhile_suffix _).length_le⟩)

end Lexeme

end DocSelect
