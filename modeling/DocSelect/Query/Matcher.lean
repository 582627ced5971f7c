import DocSelect.Query.MatchError
import DocSelect.Query.Position
import DocSelect.Selector.Dialect
import DocSelect.Selector.Printer
import DocSelect.Tree.Basic

/-!
# Matchers

A matcher is a compound made ready for trees: its variables are replaced by their values, its
formulas are read, and its pseudo-classes are looked up. Resolving a selector finds the first
problem in the order of its text, attributes of a compound before its pseudo-classes.
-/

namespace DocSelect

/-- The test of an attribute against a fixed text. -/
structure AttributeMatcher where
  name : String
  comparison : Option (Comparison × String)
deriving DecidableEq, Repr, Inhabited

/-- Whether a text compares with an expected text. An empty text is no beginning, no end and no
part of anything. -/
def Comparison.holds (op : Comparison) (actual expected : List Char) : Bool :=
  match op with
  | equals => actual == expected
  | hasWord => (Text.words actual).contains expected
  | startsWith => !expected.isEmpty && expected.isPrefixOf actual
  | endsWith => !expected.isEmpty && expected.isSuffixOf actual
  | contains => !expected.isEmpty && Text.occursIn expected actual

/-- Whether an attribute's value compares with an expected text. An array is equal to the texts
of its items, and these are its words; it has no beginning, end or part. -/
def Comparison.holdsFor (op : Comparison) (actual : Json) (expected : String) : Bool :=
  match actual with
  | .array items =>
    match op with
    | equals | hasWord => items.any fun item ↦ item.scalarText? == some expected
    | startsWith | endsWith | contains => false
  | actual => actual.scalarText?.any fun text ↦ op.holds text.toList expected.toList

namespace AttributeMatcher

/-- Whether the value of an attribute, if it has one, passes. A value of `null` is none. -/
def accepts (m : AttributeMatcher) (actual : Option Json) : Bool :=
  match actual, m.comparison with
  | none, _ => false
  | some value, none => !value.isNull
  | some value, some (op, expected) => op.holdsFor value expected

end AttributeMatcher

/-- A pseudo-class of the caller: a test of a node under an argument. -/
abbrev Handler (α : Type) := Tree α → Option String → Bool

mutual
/-- A pseudo-class made ready for trees. -/
inductive Test (α : Type) where
  | structural (test : SiblingTest)
  /-- No children, or a leaf without value. -/
  | empty
  | root
  | scope
  /-- One of some alternatives holds at the node itself. -/
  | matches (alternatives : List (Chain (Matcher α)))
  /-- None of some alternatives holds at the node itself. -/
  | not (alternatives : List (Chain (Matcher α)))
  /-- One of some alternatives is found below the node. -/
  | has (alternatives : List (Chain (Matcher α)))
  | custom (handler : Handler α) (argument : Option String)

/-- A compound made ready for trees. No type stands for every type. -/
structure Matcher (α : Type) where
  type : Option String
  id : Option String
  classes : List String
  attributes : List AttributeMatcher
  tests : List (Test α)
  combinator : Option Combinator
end

/-- What a caller adds to a selector: values of variables, pseudo-classes, and how deep a search
may go. -/
structure QueryOptions (α : Type) where
  maxDepth : Nat
  bindings : Members String
  pseudos : Members (Handler α)

namespace QueryOptions

variable {α : Type}

/-- How deep a search may go unless the caller says otherwise. -/
def defaultMaxDepth : Nat := 512

/-- Nothing added. -/
def default : QueryOptions α := ⟨defaultMaxDepth, [], []⟩

/-- Options that add nothing. -/
instance : Inhabited (QueryOptions α) := ⟨default⟩

/-- Limits how deep a search may go. -/
def withMaxDepth (o : QueryOptions α) (maxDepth : Nat) : QueryOptions α :=
  { o with maxDepth := maxDepth }

/-- Binds a variable to a value, in place of an older one. -/
def bind (o : QueryOptions α) (name value : String) : QueryOptions α :=
  { o with bindings := Members.insert name value o.bindings }

/-- Adds a pseudo-class, in place of an older one. Built-in ones win over it. -/
def withPseudo (o : QueryOptions α) (name : String) (handler : Handler α) : QueryOptions α :=
  { o with pseudos := Members.insert name handler o.pseudos }

/-- The value of a variable. -/
def lookup (o : QueryOptions α) (name : String) : Except MatchError String :=
  (o.bindings.get? name).elim (.error (.unbound name)) .ok

/-- The options as messages for developers show them. -/
def debug (o : QueryOptions α) : String :=
  let bindings := o.bindings.map fun (name, value) ↦ Text.quoted name ++ ": " ++ Text.quoted value
  let pseudos := o.pseudos.map fun (name, _) ↦ Text.quoted name
  "QueryOptions \x7b max_depth: " ++ String.ofList (Nat.toDigits 10 o.maxDepth)
    ++ ", substitutions: \x7b" ++ ", ".intercalate bindings
    ++ "\x7d, pseudos: [" ++ ", ".intercalate pseudos ++ "] \x7d"

end QueryOptions

section Resolve

variable {α : Type} (o : QueryOptions α)

/-- The test of an attribute with its variable replaced. -/
def AttributeTest.resolve (t : AttributeTest) : Except MatchError AttributeMatcher :=
  match t.comparison with
  | none => .ok ⟨t.name, none⟩
  | some (op, .text expected) => .ok ⟨t.name, some (op, expected)⟩
  | some (op, .variable name) => do
    let expected ← o.lookup name
    return ⟨t.name, some (op, expected)⟩

/-- The tests of some attributes, or the first problem. -/
def AttributeTest.resolveAll : List AttributeTest → Except MatchError (List AttributeMatcher)
  | [] => .ok []
  | t :: ts => do
    let m ← t.resolve o
    return m :: (← AttributeTest.resolveAll ts)

/-- Reads a formula. -/
def readFormula (text : String) : Except MatchError ReadFormula :=
  (ReadFormula.parse text).mapError .formula

/-- The formula of an argument. -/
def Argument.toFormula (pseudo : String) (a : Argument) : Except MatchError ReadFormula :=
  match a with
  | .text s | .formula s => readFormula s
  | .variable name => do readFormula (← o.lookup name)
  | .none | .selector _ => .error (.wrongArgument pseudo .formula)

/-- The text that a pseudo-class of the caller gets as its argument. -/
def Argument.toText (a : Argument) : Except MatchError (Option String) :=
  match a with
  | .none => .ok Option.none
  | .text s | .formula s => .ok (some s)
  | .variable name => do return some (← o.lookup name)
  | .selector s => .ok (some s.render)

/-- A pseudo-class that takes no argument. -/
def Argument.refuse (pseudo : String) (a : Argument) (test : Test α) :
    Except MatchError (Test α) :=
  match a with
  | .none => .ok test
  | _ => .error (.wrongArgument pseudo .none)

/-- The pseudo-classes that take no argument. -/
def bareTest? : String → Option (Test α)
  | "first-child" => some (.structural (.bare (.first .siblings) rfl))
  | "last-child" => some (.structural (.bare (.last .siblings) rfl))
  | "first-of-type" => some (.structural (.bare (.first .sameType) rfl))
  | "last-of-type" => some (.structural (.bare (.last .sameType) rfl))
  | "only-child" => some (.structural (.bare (.only .siblings) rfl))
  | "only-of-type" => some (.structural (.bare (.only .sameType) rfl))
  | "empty" | "blank" => some .empty
  | "root" => some .root
  | "scope" => some .scope
  | _ => none

/-- The pseudo-classes that take a formula. -/
def formulaTest? : String → Option (ReadFormula → SiblingTest)
  | "nth-child" => some (.nth .siblings)
  | "nth-last-child" => some (.nthLast .siblings)
  | "nth-of-type" => some (.nth .sameType)
  | "nth-last-of-type" => some (.nthLast .sameType)
  | _ => none

/-- The pseudo-classes that take a selector. -/
def selectorTest? : String → Option (List (Chain (Matcher α)) → Test α)
  | "any" | "matches" => some .matches
  | "not" => some .not
  | "has" => some .has
  | _ => none

/-- A pseudo-class of the caller. -/
def customTest (name : String) (a : Argument) : Except MatchError (Test α) :=
  match o.pseudos.get? name with
  | none => .error (.unknownPseudo name)
  | some handler => do return .custom handler (← a.toText o)

mutual
/-- The alternatives of a selector, or the first problem. -/
def Selector.resolve : Selector → Except MatchError (List (Chain (Matcher α)))
  | .chain c => do return [← Selector.resolveChain c]
  | .list cs => Selector.resolveChains cs

/-- The matchers of some chains, or the first problem. -/
def Selector.resolveChains :
    List (Chain Compound) → Except MatchError (List (Chain (Matcher α)))
  | [] => .ok []
  | c :: cs => do
    let m ← Selector.resolveChain c
    return m :: (← Selector.resolveChains cs)

/-- The matchers of a chain, or the first problem. -/
def Selector.resolveChain : Chain Compound → Except MatchError (Chain (Matcher α))
  | ⟨head, links⟩ => do
    let m ← head.resolve
    return ⟨m, ← Selector.resolveLinks links⟩

/-- The matchers of some compounds, or the first problem. -/
def Selector.resolveLinks : List Compound → Except MatchError (List (Matcher α))
  | [] => .ok []
  | c :: cs => do
    let m ← c.resolve
    return m :: (← Selector.resolveLinks cs)

/-- The matcher of a compound, or the first problem. -/
def Compound.resolve : Compound → Except MatchError (Matcher α)
  | ⟨type, id, classes, attributes, pseudos, combinator⟩ => do
    let attributes ← AttributeTest.resolveAll o attributes
    let tests ← PseudoClass.resolveAll pseudos
    let type := match type with
      | some (.named name) => some name
      | some .any | none => none
    return ⟨type, id, classes, attributes, tests, combinator⟩

/-- The tests of some pseudo-classes, or the first problem. -/
def PseudoClass.resolveAll : List PseudoClass → Except MatchError (List (Test α))
  | [] => .ok []
  | p :: ps => do
    let t ← p.resolve
    return t :: (← PseudoClass.resolveAll ps)

/-- The test of a pseudo-class, or why it is none. -/
def PseudoClass.resolve : PseudoClass → Except MatchError (Test α)
  | ⟨name, argument⟩ =>
    match bareTest? name with
    | some test => argument.refuse name test
    | none =>
      match formulaTest? name with
      | some test => do return .structural (test (← argument.toFormula o name))
      | none =>
        match selectorTest? name with
        | some test =>
          match argument with
          | .selector s => do return test (← s.resolve)
          | _ => .error (.wrongArgument name .selector)
        | none => customTest o name argument
end

end Resolve

end DocSelect
