import DocSelect.Json.Printer
import DocSelect.Selector.Lexeme
import DocSelect.Selector.Basic

/-!
# Writing selectors

Every selector has one plain spelling: the parts of a compound in a fixed order, one space
around combinators, values in quotation marks, and names and arguments with escapes. What is
escaped would end a name, an argument or a value too early, or begin something else.
-/

namespace DocSelect

namespace Spelling

open Lexeme (isSpecial)

/-- A character by its number in base sixteen, with a space that ends the number. -/
def hexEscape (c : Char) : List Char := '\\' :: Text.hexDigits c.toNat ++ [' ']

/-- A character of a name; `first` says whether the name begins with it. -/
def nameChar (first : Bool) (c : Char) : List Char :=
  if isSpecial c then ['\\', c]
  else if c == '_' || c == '-' || c.isAlpha || (!first && c.isDigit) then [c]
  else hexEscape c

/-- The characters of a name behind its first. -/
def nameTail (cs : List Char) : List Char := cs.flatMap (nameChar false)

/-- A text as a name. -/
def name (s : String) : List Char :=
  match s.toList with
  | [] => []
  | c :: cs => nameChar true c ++ nameTail cs

/-- A control character, by its Unicode category. -/
def isControl (c : Char) : Bool := c.toNat < 0x20 || (0x7F ≤ c.toNat && c.toNat < 0xA0)

/-- A character within quotation marks. Numbers have six digits, so that none of them begins
like an escape of one letter. -/
def stringChar (c : Char) : List Char :=
  if c = '"' then ['\\', '"']
  else if c = '\\' then ['\\', '\\']
  else if c = '\n' then ['\\', 'n']
  else if c = '\r' then ['\\', 'r']
  else if c = '\t' then ['\\', 't']
  else if c = '\x0c' then ['\\', 'f']
  else if isControl c then '\\' :: Json.padHex 6 c.toNat ++ [' ']
  else [c]

/-- A text within quotation marks. -/
def string (s : String) : List Char := '"' :: s.toList.flatMap stringChar ++ ['"']

/-- Whether the text of a formula reads back as it stands. -/
def isRawSafe (cs : List Char) : Bool :=
  !cs.head?.any Text.isBlank && !cs.getLast?.any Text.isBlank
    && !cs.head?.any (fun c ↦ c == '$' || c == '"' || c == '\'')
    && !cs.contains ')' && !cs.contains '\\'

/-- The text of a formula, raw if it reads back so. -/
def formula (s : String) : List Char := if isRawSafe s.toList then s.toList else name s

/-- A type test. -/
def typeTest : TypeTest → List Char
  | .any => ['*']
  | .named s => name s

/-- The expected side of a comparison. -/
def operand : Operand → List Char
  | .text s => string s
  | .variable s => '$' :: name s

/-- An attribute test with its brackets. -/
def attributeTest (t : AttributeTest) : List Char :=
  let comparison := t.comparison.elim [] fun (op, value) ↦
    op.mark?.toList ++ '=' :: operand value
  '[' :: name t.name ++ comparison ++ [']']

/-- A combinator with the spaces around it. -/
def combinator (op : Combinator) : List Char :=
  match op.mark? with
  | none => [' ']
  | some c => [' ', c, ' ']

/-- The parts of a compound before its pseudo-classes. -/
def plainParts (c : Compound) : List Char :=
  c.type.elim [] typeTest ++ c.id.elim [] ('#' :: name ·) ++ c.classes.flatMap ('.' :: name ·)
    ++ c.attributes.flatMap attributeTest

end Spelling

mutual
/-- The spelling of a selector, which may end in the space of an escape. -/
def Selector.spell : Selector → List Char
  | .chain c => Selector.spellChain c
  | .list cs => Selector.spellChains cs

/-- The spellings of some alternatives with commas between them. -/
def Selector.spellChains : List (Chain Compound) → List Char
  | [] => []
  | [c] => Selector.spellChain c
  | c :: cs => Selector.spellChain c ++ ',' :: ' ' :: Selector.spellChains cs

/-- The spelling of a chain. -/
def Selector.spellChain : Chain Compound → List Char
  | ⟨head, links⟩ => head.spellLinked ++ Selector.spellLinks links

/-- The spellings of some links. -/
def Selector.spellLinks : List Compound → List Char
  | [] => []
  | c :: cs => c.spellLinked ++ Selector.spellLinks cs

/-- The spelling of a compound behind that of its combinator. -/
def Compound.spellLinked : Compound → List Char
  | ⟨type, id, classes, attributes, pseudos, combinator⟩ =>
    combinator.elim [] Spelling.combinator
      ++ Spelling.plainParts ⟨type, id, classes, attributes, [], none⟩
      ++ PseudoClass.spellAll pseudos

/-- The spellings of some pseudo-classes. -/
def PseudoClass.spellAll : List PseudoClass → List Char
  | [] => []
  | p :: ps => p.spell ++ PseudoClass.spellAll ps

/-- The spelling of a pseudo-class. -/
def PseudoClass.spell : PseudoClass → List Char
  | ⟨name, argument⟩ => ':' :: Spelling.name name ++ argument.spell

/-- The spelling of an argument with its parentheses. -/
def Argument.spell : Argument → List Char
  | .none => []
  | .text s => '(' :: Spelling.name s ++ [')']
  | .formula s => '(' :: Spelling.formula s ++ [')']
  | .variable s => '(' :: '$' :: Spelling.name s ++ [')']
  | .selector s => '(' :: s.spell ++ [')']
end

/-- The spelling of a compound alone, without its combinator. -/
def Compound.spell (c : Compound) : List Char :=
  Spelling.plainParts c ++ PseudoClass.spellAll c.pseudos

/-- The text of a selector as it is spelled. -/
def Selector.display (s : Selector) : String := String.ofList s.spell

/-- The plain text of a selector, without white space around it. -/
def Selector.render (s : Selector) : String := String.ofList (Text.trim s.spell)

/-- The text of a compound alone. -/
def Compound.display (c : Compound) : String := String.ofList c.spell

end DocSelect
