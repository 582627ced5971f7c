import DocSelect.Tree.Basic

/-!
# Lifting children

Lifting a type puts the children of every parent of that type in its place. The root stays, and
so do leaves of the type, which have no children to put there.
-/

namespace DocSelect.Tree

variable {α : Type} [Element α]

/-- A tree, or its children if it is a parent of a type. -/
def unwrap (type : String) : Tree α → List (Tree α)
  | .leaf a => [.leaf a]
  | .parent a cs => if Element.type a = type then cs else [.parent a cs]

mutual
/-- Puts the children of parents of a type in their places, below the root. -/
def lift (type : String) : Tree α → Tree α
  | .leaf a => .leaf a
  | .parent a cs => .parent a (liftAll type cs)

/-- Lifts siblings, and puts the children of those of a type in their places. -/
def liftAll (type : String) : List (Tree α) → List (Tree α)
  | [] => []
  | t :: ts => (t.lift type).unwrap type ++ liftAll type ts
end

end DocSelect.Tree
