import DocSelect.Query.Evaluation
import DocSelect.Selector.Parser

/-!
# Queries

A query is a selector made ready for trees of some kind. It finds all nodes of a tree that
match, or the first of them, or says whether one node matches by itself.
-/

namespace DocSelect

/-- A selector with its matchers. -/
structure Query (α : Type) where
  source : Selector
  alternatives : List (Chain (Matcher α))
  maxDepth : Nat

/-- Why a selector's text gives no answer: it is not a selector, or the query fails. -/
inductive SelectError where
  | parse (error : ParseError)
  | match (error : MatchError)
deriving DecidableEq, Repr

/-- The message of an error. -/
def SelectError.message : SelectError → String
  | .parse e => e.message
  | .match e => e.message

/-- The nodes that `:scope` stands for in a query from a node: the node itself, or its children
if its type is `root`. -/
def Place.scope {α : Type} [Element α] (p : Place α) : List Path :=
  match p.tree.children? with
  | some _ => if p.tree.type = "root" then p.children.map Place.path else [p.path]
  | none => [p.path]

namespace Query

variable {α : Type}

/-- Makes a selector ready. -/
def ofSelector (o : QueryOptions α) (s : Selector) : Except MatchError (Query α) := do
  let alternatives ← s.resolve o
  return ⟨s, alternatives, o.maxDepth⟩

/-- Reads a selector and makes it ready, nothing added. -/
def parse (d : Dialect) (text : String) : Except SelectError (Query α) := do
  let s ← (Selector.parse d text).mapError .parse
  (ofSelector .default s).mapError .match

/-- The text of a query. -/
def display (q : Query α) : String := q.source.render

/-- A query as messages for developers show it. -/
def debug (q : Query α) : String :=
  "Query \x7b selector: " ++ Text.quoted q.display ++ ", max_depth: "
    ++ String.ofList (Nat.toDigits 10 q.maxDepth) ++ " \x7d"

variable [Element α]

/-- The search for the nodes of a query under a root. -/
def search (q : Query α) (firstOnly : Bool) (root : Tree α) : Search α :=
  ⟨Matcher.chains q.alternatives, firstOnly, (Place.root root).scope, q.maxDepth⟩

/-- All matching nodes at and below a root, in document order. -/
def findAll (q : Query α) (root : Tree α) : Except MatchError (List (Place α)) := do
  return (← (q.search false root).run root).found

/-- The first matching node at or below a root. -/
def findFirst (q : Query α) (root : Tree α) : Except MatchError (Option (Place α)) := do
  return (← (q.search true root).run root).found.head?

/-- The number of nodes that a search visits. -/
def visits (q : Query α) (firstOnly : Bool) (root : Tree α) : Except MatchError Nat := do
  return (← (q.search firstOnly root).run root).visits

/-- Tests a node by alternatives in order; a chain among them is refused when its turn comes. -/
def anyAt (setting : Setting) (node : Place α) (position : Option Position) :
    List (Chain (Step α)) → Except MatchError Bool
  | [] => .ok false
  | c :: cs =>
    if c.links.isEmpty then do
      let v ← c.head.test setting node position
      if v.holds then return true else anyAt setting node position cs
    else .error .chained

/-- The position of a node among the children of another. -/
def positionIn (node parent : Place α) : Except MatchError Position :=
  match parent.children.findIdx? fun child ↦ child.path == node.path with
  | none => .error .notAChild
  | some index =>
    (Position.among? ((parent.tree.children?.getD []).map Tree.type) index).elim
      (.error .notAChild) .ok

/-- Whether a node matches by itself. Without its parent no structural pseudo-class can be
asked, and no chain can be asked at all. -/
def matchesAt (q : Query α) (node : Place α) (parent : Option (Place α)) :
    Except MatchError Bool := do
  let position ← match parent with
    | none => pure none
    | some parent => some <$> positionIn node parent
  anyAt ⟨node.scope, 0, q.maxDepth, parent.isNone, false⟩ node position
    (Matcher.chains q.alternatives)

end Query

/-- All nodes at and below a root that match a selector's text. -/
def selectAll {α : Type} [Element α] (d : Dialect) (selector : String) (root : Tree α) :
    Except SelectError (List (Place α)) := do
  let q ← Query.parse d selector
  (q.findAll root).mapError .match

/-- The first node at or below a root that matches a selector's text. -/
def selectFirst {α : Type} [Element α] (d : Dialect) (selector : String) (root : Tree α) :
    Except SelectError (Option (Place α)) := do
  let q ← Query.parse d selector
  (q.findFirst root).mapError .match

/-- Whether a node matches a selector's text by itself. -/
def matchesSelector {α : Type} [Element α] (d : Dialect) (selector : String) (node : Place α)
    (parent : Option (Place α)) : Except SelectError Bool := do
  let q ← Query.parse d selector
  (q.matchesAt node parent).mapError .match

end DocSelect
