import DocSelect.Formula

/-!
# Errors of queries

A selector may be well written and still not be answerable: it names an unknown pseudo-class,
an unbound variable or a bad formula, or the search meets a tree that is too deep.
-/

namespace DocSelect

/-- The argument that a pseudo-class takes. -/
inductive ArgumentNeed where
  | none
  | formula
  | selector
deriving DecidableEq, Repr, Inhabited

/-- The words for the argument that a pseudo-class takes. -/
def ArgumentNeed.text : ArgumentNeed → String
  | none => "no argument"
  | formula => "a formula"
  | selector => "a selector"

/-- A part that must not stand directly within `:not`, `:matches` or `:any`. -/
inductive OuterPart where
  | id
  | className
deriving DecidableEq, Repr, Inhabited

/-- The word for a part. -/
def OuterPart.text : OuterPart → String
  | id => "id"
  | className => "class"

/-- Why a query has no answer. -/
inductive MatchError where
  /-- An identifier or class directly within `:not`, `:matches` or `:any`. -/
  | outerPart (part : OuterPart)
  /-- A structural pseudo-class at a node whose siblings are unknown. -/
  | noParent (pseudo : String)
  /-- A chain where a single node is tested. -/
  | chained
  | unknownPseudo (name : String)
  | wrongArgument (pseudo : String) (need : ArgumentNeed)
  | formula (error : FormulaError)
  | unbound (name : String)
  | notAChild
  | tooDeep (limit : Nat)
deriving DecidableEq, Repr, Inhabited

/-- The message of an error. -/
def MatchError.message : MatchError → String
  | outerPart part => part.text ++ " selectors can only be nested inside `:has`"
  | noParent pseudo => "cannot use `:" ++ pseudo ++ "` without parent"
  | chained => "expected selector without nesting"
  | unknownPseudo name => "unknown pseudo-selector `" ++ name ++ "`"
  | wrongArgument pseudo need => "`:" ++ pseudo ++ "` expects " ++ need.text
  | formula error => error.message
  | unbound name => "no value bound for substitution `$" ++ name ++ "`"
  | notAChild => "node is not a child of the given parent"
  | tooDeep limit =>
    "tree is deeper than the limit of " ++ String.ofList (Nat.toDigits 10 limit) ++ " levels"

end DocSelect
