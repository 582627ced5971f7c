import DocSelect.Text.Printable

/-!
# Quoted text in messages

Messages show a character between apostrophes and a text between quotation marks. The
quotation mark in use, the backslash and the usual controls have short escapes, a character
that is not printable is shown by its number, and all else stands for itself.
-/

namespace DocSelect.Text

/-- The digits of a number in base sixteen, letters small. -/
def hexDigits (n : Nat) : List Char := Nat.toDigits 16 n

/-- The number of a character between braces. -/
def numberEscape (c : Char) : List Char :=
  ['\\', 'u', '\x7b'] ++ hexDigits c.toNat ++ ['\x7d']

/-- A character as it stands within a text that is closed by `mark`. -/
def quoteChar (mark c : Char) : List Char :=
  if c = '\x00' then ['\\', '0']
  else if c = '\t' then ['\\', 't']
  else if c = '\r' then ['\\', 'r']
  else if c = '\n' then ['\\', 'n']
  else if c = '\\' || c = mark then ['\\', c]
  else if isPrintable c then [c]
  else numberEscape c

/-- A text between quotation marks. -/
def quoted (s : String) : String :=
  String.ofList ('"' :: s.toList.flatMap (quoteChar '"') ++ ['"'])

/-- A character between apostrophes. -/
def quotedChar (c : Char) : String :=
  String.ofList ('\'' :: quoteChar '\'' c ++ ['\''])

end DocSelect.Text
