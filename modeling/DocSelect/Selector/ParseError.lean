import DocSelect.Text.Quoted
import DocSelect.Text.Rest

/-!
# Errors in selector text

While text is read a problem is located by the text left where it starts and the text left
where it ends. Once the whole text is known that becomes a span of bytes.
-/

namespace DocSelect

/-- What had to come next. -/
inductive Expectation where
  | identifier
  | escapedCharacter
  /-- One certain character. -/
  | delimiter (c : Char)
  /-- Blank space or a combinator. -/
  | separator
deriving DecidableEq, Repr, Inhabited

/-- The words for what had to come next. -/
def Expectation.text : Expectation → String
  | identifier => "identifier"
  | escapedCharacter => "escaped character"
  | delimiter c => String.ofList ['"', c, '"']
  | separator => "whitespace or nesting operator"

/-- Why a text is not a selector. -/
inductive ParseErrorKind where
  | unexpectedEnd (expected : Expectation)
  | unexpectedChar (expected : Expectation) (found : Char)
  /-- No compound behind a combinator or comma. -/
  | ruleExpected (after : Char)
  /-- The selector ends before its text does. -/
  | trailingInput (found : Char)
  | unterminatedString (quote : Char)
  /-- The number of an escape is no character. -/
  | invalidEscape (written : String)
  | emptyIdentifier (after : Char)
  /-- A combinator or comparison outside the dialect. -/
  | unknownOperator (op : Char)
deriving DecidableEq, Repr, Inhabited

/-- The message of an error, without its place. -/
def ParseErrorKind.message : ParseErrorKind → String
  | unexpectedEnd e => "expected " ++ e.text ++ " but end of input reached"
  | unexpectedChar e c => "expected " ++ e.text ++ " but " ++ Text.quotedChar c ++ " found"
  | ruleExpected c => "rule expected after " ++ Text.quotedChar c
  | trailingInput c => "rule expected but " ++ Text.quotedChar c ++ " found"
  | unterminatedString c =>
    "unterminated string; expected closing " ++ String.ofList [c]
  | invalidEscape written => "invalid escape sequence: \\" ++ written
  | emptyIdentifier c => "expected identifier after " ++ Text.quotedChar c
  | unknownOperator c => "unknown operator " ++ Text.quotedChar c

/-- A range of bytes of a text. -/
structure Span where
  start : Nat
  stop : Nat
deriving DecidableEq, Repr, Inhabited

/-- An error and the bytes of the text that it is about. -/
structure ParseError where
  kind : ParseErrorKind
  span : Span
deriving DecidableEq, Repr, Inhabited

/-- The message of an error with its place. -/
def ParseError.message (e : ParseError) : String :=
  e.kind.message ++ " at byte " ++ String.ofList (Nat.toDigits 10 e.span.start)

/-- An error located by the text left where it starts and the text left where it ends. -/
structure Problem where
  kind : ParseErrorKind
  start : List Char
  stop : List Char
deriving DecidableEq, Repr, Inhabited

namespace Problem

/-- A problem with the next character, or with the end of the text. -/
def here (kind : ParseErrorKind) (cs : List Char) : Problem := ⟨kind, cs, cs.tail⟩

/-- The error that a problem is, within the text that was read. -/
def toError (text : List Char) (p : Problem) : ParseError :=
  ⟨p.kind, Text.byteLength text - Text.byteLength p.start,
    Text.byteLength text - Text.byteLength p.stop⟩

end Problem

end DocSelect
