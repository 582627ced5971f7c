import DocSelect.Tree.Basic

/-!
# Pruning trees

Pruning asks of each node, in document order, whether it is kept. A node that is not kept goes
with everything below it, and nothing below it is asked. With cascading a parent goes too when
all of its children have gone; leaves and parents that never had children stay. The test may
keep a state from one node to the next.
-/

namespace DocSelect

namespace Tree

variable {α σ : Type}

mutual
/-- Prunes a subtree at a path, or removes it. -/
def rebuild (keep : Place α → σ → Bool × σ) (cascade : Bool) (path : Path) :
    Tree α → σ → Option (Tree α) × σ
  | .leaf a, state =>
    let (kept, state) := keep ⟨path, .leaf a⟩ state
    (if kept then some (.leaf a) else none, state)
  | .parent a cs, state =>
    let (kept, state) := keep ⟨path, .parent a cs⟩ state
    if kept then
      let (children, state) := rebuildAll keep cascade path 0 cs state
      (if cascade && !cs.isEmpty && children.isEmpty then none else some (.parent a children),
        state)
    else (none, state)

/-- Prunes siblings from an index on. -/
def rebuildAll (keep : Place α → σ → Bool × σ) (cascade : Bool) (path : Path) (index : Nat) :
    List (Tree α) → σ → List (Tree α) × σ
  | [], state => ([], state)
  | t :: ts, state =>
    let (here, state) := rebuild keep cascade (path ++ [index]) t state
    let (behind, state) := rebuildAll keep cascade path (index + 1) ts state
    (here.toList ++ behind, state)
end

/-- Keeps the nodes that pass a test, threading a state. -/
def filterWith (keep : Place α → σ → Bool × σ) (cascade : Bool) (t : Tree α) (state : σ) :
    Option (Tree α) × σ :=
  t.rebuild keep cascade [] state

/-- Removes the nodes that pass a test, threading a state. -/
def rejectWith (remove : Place α → σ → Bool × σ) (cascade : Bool) (t : Tree α) (state : σ) :
    Option (Tree α) × σ :=
  t.filterWith (fun place state ↦
    let (removed, state) := remove place state
    (!removed, state)) cascade state

/-- Keeps the nodes that pass a test. -/
def filter (keep : Place α → Bool) (cascade : Bool) (t : Tree α) : Option (Tree α) :=
  (t.filterWith (fun place (_ : Unit) ↦ (keep place, ())) cascade ()).1

/-- Removes the nodes that pass a test. -/
def reject (remove : Place α → Bool) (cascade : Bool) (t : Tree α) : Option (Tree α) :=
  t.filter (fun place ↦ !remove place) cascade

end Tree

end DocSelect
