/-!
# Selectors

A selector is a list of alternatives. Each alternative is a chain of compounds, and a compound
tests one node by its type, identifier, classes, attributes and pseudo-classes. Combinators
say where the next node of a chain stands. The types also hold selectors that no text denotes,
such as a chain whose links carry no combinator.
-/

namespace DocSelect

/-- Where a node of a chain stands, seen from the node before it. -/
inductive Combinator where
  /-- Anywhere below, written as blank space. -/
  | descendant
  /-- Directly below, written `>`. -/
  | child
  /-- Right behind, under the same parent, written `+`. -/
  | nextSibling
  /-- Anywhere behind, under the same parent, written `~`. -/
  | laterSibling
deriving DecidableEq, Repr, Inhabited

namespace Combinator

/-- All combinators, in their order. -/
def all : List Combinator := [descendant, child, nextSibling, laterSibling]

/-- The mark of a combinator; blank space has none. -/
def mark? : Combinator → Option Char
  | descendant => none
  | child => some '>'
  | nextSibling => some '+'
  | laterSibling => some '~'

/-- The combinator with a mark. -/
def ofMark? : Char → Option Combinator
  | '>' => some child
  | '+' => some nextSibling
  | '~' => some laterSibling
  | _ => none

/-- A combinator is known by its mark. -/
theorem ofMark?_eq_some {c : Char} {op : Combinator} :
    ofMark? c = some op ↔ op.mark? = some c := by
  constructor
  · unfold ofMark?
    split <;> simp +contextual [mark?, eq_comm]
  · intro h
    cases op <;> simp [mark?] at h <;> subst h <;> rfl

end Combinator

/-- How an attribute's text is compared with an expected text. -/
inductive Comparison where
  /-- The texts are equal, written `=`. -/
  | equals
  /-- A word of the attribute is the expected text, written `~=`. -/
  | hasWord
  /-- The attribute begins with the expected text, written `^=`. -/
  | startsWith
  /-- The attribute ends with the expected text, written `$=`. -/
  | endsWith
  /-- The attribute contains the expected text, written `*=`. -/
  | contains
deriving DecidableEq, Repr, Inhabited

namespace Comparison

/-- The comparisons that have a mark of their own, in their order. -/
def marked : List Comparison := [hasWord, startsWith, endsWith, contains]

/-- The mark before the equals sign; plain equality has none. -/
def mark? : Comparison → Option Char
  | equals => none
  | hasWord => some '~'
  | startsWith => some '^'
  | endsWith => some '$'
  | contains => some '*'

/-- The comparison with a mark. -/
def ofMark? : Char → Option Comparison
  | '~' => some hasWord
  | '^' => some startsWith
  | '$' => some endsWith
  | '*' => some contains
  | _ => none

/-- A comparison is known by its mark. -/
theorem ofMark?_eq_some {c : Char} {op : Comparison} :
    ofMark? c = some op ↔ op.mark? = some c := by
  constructor
  · unfold ofMark?
    split <;> simp +contextual [mark?, eq_comm]
  · intro h
    cases op <;> simp [mark?] at h <;> subst h <;> rfl

end Comparison

/-- The test of a node's type. -/
inductive TypeTest where
  /-- Every type, written `*`. -/
  | any
  | named (name : String)
deriving DecidableEq, Repr, Inhabited

/-- The expected side of a comparison. -/
inductive Operand where
  | text (text : String)
  /-- The value bound to a name, written `$name`. -/
  | variable (name : String)
deriving DecidableEq, Repr, Inhabited

/-- The test of one attribute: that it is there, or how it compares. -/
structure AttributeTest where
  name : String
  comparison : Option (Comparison × Operand)
deriving DecidableEq, Repr, Inhabited

/-- A list with at least one element: a head and the links behind it. -/
structure Chain (α : Type) where
  head : α
  links : List α
deriving DecidableEq, Repr, Inhabited

/-- The elements of a chain. -/
def Chain.toList {α : Type} (c : Chain α) : List α := c.head :: c.links

mutual
/-- A selector. One alternative standing alone is kept apart from a list of alternatives, so
that a list of none is the empty selector. -/
inductive Selector where
  | chain (chain : Chain Compound)
  | list (chains : List (Chain Compound))

/-- The tests of one node, and the combinator that leads to it. -/
structure Compound where
  type : Option TypeTest
  id : Option String
  classes : List String
  attributes : List AttributeTest
  pseudos : List PseudoClass
  combinator : Option Combinator

/-- A named test with an argument. -/
structure PseudoClass where
  name : String
  argument : Argument

/-- The argument of a pseudo-class. -/
inductive Argument where
  /-- No parentheses. -/
  | none
  | text (text : String)
  /-- The text of a formula such as `2n+1`. -/
  | formula (text : String)
  /-- The value bound to a name, written `$name`. -/
  | variable (name : String)
  | selector (selector : Selector)
end

/-- A compound that tests nothing. -/
def Compound.blank : Compound := ⟨none, none, [], [], [], none⟩

/-- A compound that asks for nothing. -/
instance : Inhabited Compound := ⟨.blank⟩

/-- No argument. -/
instance : Inhabited Argument := ⟨.none⟩

/-- A pseudo-class without a name. -/
instance : Inhabited PseudoClass := ⟨⟨"", .none⟩⟩

/-- Whether a compound tests nothing, which no text denotes. -/
def Compound.isBlank (c : Compound) : Bool :=
  c.type.isNone && c.id.isNone && c.classes.isEmpty && c.attributes.isEmpty && c.pseudos.isEmpty

namespace Selector

/-- The selector without alternatives, which matches nothing. -/
def empty : Selector := .list []

/-- A selector without alternatives. -/
instance : Inhabited Selector := ⟨empty⟩

/-- The alternatives of a selector. -/
def chains : Selector → List (Chain Compound)
  | .chain c => [c]
  | .list cs => cs

/-- The selector with some alternatives, written in the plainest way. -/
def ofChains : List (Chain Compound) → Selector
  | [c] => .chain c
  | cs => .list cs

/-- Whether a selector has no alternatives. -/
def isEmpty (s : Selector) : Bool := s.chains.isEmpty

/-- A selector made of some chains has these as alternatives. -/
@[simp] theorem chains_ofChains (cs : List (Chain Compound)) : (ofChains cs).chains = cs := by
  unfold ofChains
  split <;> rfl

end Selector

end DocSelect
