import DocSelect.Selector.Basic
import DocSelect.Members

/-!
# Dialects

A dialect says which selectors may be written: which combinators and marked comparisons are
known, which pseudo-classes take a selector or a formula as their argument, and whether
arguments and values may be variables. Blank space and plain equality belong to every dialect.
-/

namespace DocSelect

/-- What the argument of a pseudo-class is read as. -/
inductive ArgumentKind where
  | selector
  | formula
  | text
deriving DecidableEq, Repr, Inhabited

/-- The selectors that may be written. The lists keep the order of their types, so that equal
dialects are equal values. -/
structure Dialect where
  pseudos : Members ArgumentKind
  combinators : List Combinator
  comparisons : List Comparison
  allowsVariables : Bool
deriving DecidableEq, Repr, Inhabited

namespace Dialect

/-- The dialect with nothing but blank space, plain equality and pseudo-classes with text. -/
def empty : Dialect := ⟨[], [], [], false⟩

/-- Whether a combinator may be written. -/
def allowsCombinator (d : Dialect) (op : Combinator) : Bool :=
  op == .descendant || d.combinators.contains op

/-- Whether a comparison may be written. -/
def allowsComparison (d : Dialect) (op : Comparison) : Bool :=
  op == .equals || d.comparisons.contains op

/-- What the argument of a pseudo-class is read as: text, unless the name is registered. -/
def argumentKind (d : Dialect) (name : String) : ArgumentKind :=
  (Members.get? d.pseudos name).getD .text

/-- Registers pseudo-classes whose argument has a kind, whatever kind they had before. -/
def withPseudos (d : Dialect) (kind : ArgumentKind) (names : List String) : Dialect :=
  { d with pseudos := names.foldl (fun ps name ↦ Members.insert name kind ps) d.pseudos }

/-- Forgets those of some pseudo-classes whose argument has a kind. -/
def withoutPseudos (d : Dialect) (kind : ArgumentKind) (names : List String) : Dialect :=
  { d with pseudos := d.pseudos.filter fun p ↦ !(p.2 == kind && names.contains p.1) }

/-- Registers combinators. -/
def withCombinators (d : Dialect) (ops : List Combinator) : Dialect :=
  { d with
    combinators := Combinator.all.filter fun op ↦ d.combinators.contains op || ops.contains op }

/-- Forgets combinators. -/
def withoutCombinators (d : Dialect) (ops : List Combinator) : Dialect :=
  { d with combinators := d.combinators.filter fun op ↦ !ops.contains op }

/-- Registers marked comparisons. -/
def withComparisons (d : Dialect) (ops : List Comparison) : Dialect :=
  { d with
    comparisons := Comparison.marked.filter fun op ↦ d.comparisons.contains op || ops.contains op }

/-- Forgets marked comparisons. -/
def withoutComparisons (d : Dialect) (ops : List Comparison) : Dialect :=
  { d with comparisons := d.comparisons.filter fun op ↦ !ops.contains op }

/-- Says whether variables may be written. -/
def withVariables (d : Dialect) (allowed : Bool) : Dialect := { d with allowsVariables := allowed }

/-- The dialect for documents: all combinators and comparisons, no variables, selectors within
`:any`, `:matches`, `:not` and `:has`, and formulas within the `nth` pseudo-classes. -/
def document : Dialect :=
  empty
    |>.withComparisons Comparison.marked
    |>.withPseudos .selector ["any", "matches", "not", "has"]
    |>.withPseudos .formula ["nth-child", "nth-last-child", "nth-of-type", "nth-last-of-type"]
    |>.withCombinators [.child, .nextSibling, .laterSibling]

/-- Every dialect has descendants, which need no mark. -/
@[simp] theorem allowsCombinator_descendant (d : Dialect) :
    d.allowsCombinator .descendant = true := rfl

/-- Every dialect has equality. -/
@[simp] theorem allowsComparison_equals (d : Dialect) : d.allowsComparison .equals = true := rfl

end Dialect

end DocSelect
