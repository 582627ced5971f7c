import DocSelect.Json.Basic
import DocSelect.Text.Quoted

/-!
# Writing JSON

Values are written without spaces, members in the order they have. Within a string only the
quotation mark, the backslash and the controls are escaped.
-/

namespace DocSelect.Json

/-- A number in base sixteen with at least `width` digits. -/
def padHex (width n : Nat) : List Char :=
  let digits := Text.hexDigits n
  List.replicate (width - digits.length) '0' ++ digits

/-- A character within a written string. -/
def writeChar (c : Char) : List Char :=
  if c = '"' || c = '\\' then ['\\', c]
  else if c = '\x08' then ['\\', 'b']
  else if c = '\t' then ['\\', 't']
  else if c = '\n' then ['\\', 'n']
  else if c = '\x0c' then ['\\', 'f']
  else if c = '\r' then ['\\', 'r']
  else if c.toNat < 0x20 then '\\' :: 'u' :: padHex 4 c.toNat
  else [c]

/-- A written string. -/
def writeString (s : String) : String :=
  String.ofList ('"' :: s.toList.flatMap writeChar ++ ['"'])

mutual
/-- The text of a value. -/
def write : Json → String
  | .null => "null"
  | .bool b => if b then "true" else "false"
  | .number n => n.text
  | .string s => writeString s
  | .array items => "[" ++ writeItems items ++ "]"
  | .object members => "\x7b" ++ writeMembers members ++ "\x7d"

/-- Items with commas between them. -/
def writeItems : List Json → String
  | [] => ""
  | [item] => item.write
  | item :: rest => item.write ++ "," ++ writeItems rest

/-- Members with commas between them. -/
def writeMembers : List (String × Json) → String
  | [] => ""
  | [(name, value)] => writeString name ++ ":" ++ value.write
  | (name, value) :: rest => writeString name ++ ":" ++ value.write ++ "," ++ writeMembers rest
end

end DocSelect.Json
