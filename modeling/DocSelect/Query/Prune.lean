import DocSelect.Query.Basic
import DocSelect.Tree.Prune

/-!
# Pruning by queries

The nodes that a query finds are removed from a tree, or are the only ones to stay. All of them
are found before anything is removed, so chains see the tree as it was.
-/

namespace DocSelect

namespace Query

variable {α : Type} [Element α]

/-- Whether a node is among those that were found. -/
def isAmong (found : List (Place α)) (place : Place α) : Bool :=
  found.any fun other ↦ other.path == place.path

/-- Removes the nodes that a query finds in a tree. -/
def reject (q : Query α) (cascade : Bool) (t : Tree α) : Except MatchError (Option (Tree α)) := do
  let found ← q.findAll t
  return t.reject (isAmong found) cascade

/-- Keeps the nodes that a query finds in a tree. -/
def filter (q : Query α) (cascade : Bool) (t : Tree α) : Except MatchError (Option (Tree α)) := do
  let found ← q.findAll t
  return t.filter (isAmong found) cascade

end Query

end DocSelect
