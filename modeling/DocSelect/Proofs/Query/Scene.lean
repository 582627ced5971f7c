import DocSelect.Query.Search
import DocSelect.Proofs.Query.Position
import DocSelect.Proofs.Tree.Order

/-!
# Chains laid over trees

What it means that a node of a tree matches a chain, said without any search: nodes of the tree
stand for the compounds of the chain, each passes the test of its compound at its own position,
and each stands where the combinator between them says. A scene holds the nodes that may take
part. Two scenes matter: a whole tree, and all that is strictly below one of its nodes.
-/

namespace DocSelect

variable {α : Type}

/-- Whether a combinator leads from one node to another, both given by their paths. -/
def Combinator.Leads : Combinator → Path → Path → Prop
  | descendant, a, b => ∃ q, q ≠ [] ∧ b = a ++ q
  | child, a, b => ∃ i, b = a ++ [i]
  | nextSibling, a, b => ∃ q i, a = q ++ [i] ∧ b = q ++ [i + 1]
  | laterSibling, a, b => ∃ q i j, i < j ∧ a = q ++ [i] ∧ b = q ++ [j]

/-- The position of a node among its siblings, counted directly. The root has none. -/
def Tree.positionAt? [Element α] (t : Tree α) (path : Path) : Option Position :=
  match path.getLast? with
  | none => none
  | some i =>
    (t.at? path.dropLast).bind fun parent ↦
      Position.among? ((parent.children?.getD []).map Tree.type) i

/-- Whether a step's test answers that it holds. -/
def Step.Accepts (step : Step α) (setting : Setting) (place : Place α)
    (position : Option Position) : Prop :=
  ∃ v, step.test setting place position = .ok v ∧ v.holds = true

/-- Whether the head of a chain carries no combinator and each link carries one. -/
def Chain.Joined {β : Type} (combinator : β → Option Combinator) (c : Chain β) : Prop :=
  combinator c.head = none ∧ ∀ link ∈ c.links, (combinator link).isSome = true

/-- The nodes that chains are laid over, and what their tests may ask. Paths within a scene
start at its top. -/
structure Scene (α : Type) where
  top : Place α
  /-- Whether the top takes part, or only what is below it. -/
  withTop : Bool
  scope : List Path
  /-- The depth of the top. -/
  depth : Nat
  maxDepth : Nat

namespace Scene

variable (g : Scene α)

/-- The setting of tests at a node some levels below the top. -/
def setting (level : Nat) : Setting := ⟨g.scope, g.depth + level, g.maxDepth, false, false⟩

/-- The node of a scene at a path from its top. -/
def node? (path : Path) : Option (Place α) :=
  if path = [] ∧ g.withTop = false then none
  else (g.top.tree.at? path).map fun t ↦ ⟨g.top.path ++ path, t⟩

variable [Element α]

/-- Whether a step's test passes at a node, at the node's own position. -/
def Passes (step : Step α) (path : Path) : Prop :=
  ∃ place, g.node? path = some place ∧
    step.Accepts (g.setting path.length) place (g.top.tree.positionAt? path)

/-- Whether the links of a chain lead from one node to another, passing at each node between. -/
def Joins : List (Step α) → Path → Path → Prop
  | [], a, b => a = b
  | step :: steps, a, b =>
    ∃ op m, step.combinator = some op ∧ op.Leads a m ∧ g.Passes step m ∧ Joins steps m b

/-- Whether a node is the last of some nodes that stand for the compounds of a chain. -/
def Matches (c : Chain (Step α)) (path : Path) : Prop :=
  ∃ first, g.Passes c.head first ∧ g.Joins c.links first path

end Scene

namespace Tree

/-- The children of a node stand one index below it. -/
theorem at?_snoc {t : Tree α} {path : Path} {a : α} {cs : List (Tree α)}
    (h : t.at? path = some (.parent a cs)) (i : Nat) : t.at? (path ++ [i]) = cs[i]? := by
  rw [at?_append, h]
  cases hc : cs[i]? with
  | none => simp [at?, hc]
  | some child => simp [at?, hc]

/-- A child's position is counted among its siblings. -/
theorem positionAt?_snoc [Element α] {t : Tree α} {path : Path} {a : α} {cs : List (Tree α)}
    (h : t.at? path = some (.parent a cs)) (i : Nat) :
    t.positionAt? (path ++ [i]) = Position.among? (cs.map Tree.type) i := by
  simp [positionAt?, h, children?]

/-- Of the siblings from an index on, the first stands at that index. -/
theorem at?_snoc_of_drop {t u : Tree α} {path : Path} {a : α} {cs us : List (Tree α)} {index : Nat}
    (h : t.at? path = some (.parent a cs)) (hcs : cs.drop index = u :: us) :
    t.at? (path ++ [index]) = some u := by
  rw [at?_snoc h, ← List.head?_drop, hcs, List.head?_cons]

/-- Of the positions from the pass, the first that is left is the one counted directly. -/
theorem head?_drop_positions [Element α] {t : Tree α} {path : Path} {a : α} {cs : List (Tree α)}
    (h : t.at? path = some (.parent a cs)) (index : Nat) :
    ((Position.all (cs.map Tree.type)).drop index).head? = t.positionAt? (path ++ [index]) := by
  rw [List.head?_drop, Position.getElem?_all, positionAt?_snoc h]

end Tree

namespace Scene

variable {g : Scene α}

/-- The path of a node of a scene runs through the top. -/
theorem path_node? {path : Path} {p : Place α} (h : g.node? path = some p) :
    p.path = g.top.path ++ path := by
  unfold node? at h
  split at h
  · cases h
  · obtain ⟨t, _, rfl⟩ := Option.map_eq_some_iff.1 h
    rfl

/-- Every node below the top of a tree takes part. -/
theorem node?_snoc {path : Path} {i : Nat} {t : Tree α}
    (h : g.top.tree.at? (path ++ [i]) = some t) :
    g.node? (path ++ [i]) = some ⟨g.top.path ++ (path ++ [i]), t⟩ := by
  simp [node?, h]

/-- No node of a scene is below a node without such a child. -/
theorem node?_eq_none {path rest : Path} {i : Nat} {a : α} {cs : List (Tree α)}
    (h : g.top.tree.at? path = some (.parent a cs)) (hi : cs.length ≤ i) :
    g.node? (path ++ i :: rest) = none := by
  have hat : g.top.tree.at? (path ++ i :: rest) = none := by
    rw [Tree.at?_append, h]
    simp [Tree.at?, List.getElem?_eq_none hi]
  unfold node?
  split
  · rfl
  · rw [hat]
    rfl

/-- No node of a scene is below a leaf. -/
theorem node?_leaf {path rest : Path} {i : Nat} {a : α}
    (h : g.top.tree.at? path = some (.leaf a)) : g.node? (path ++ i :: rest) = none := by
  have hat : g.top.tree.at? (path ++ i :: rest) = none := by
    rw [Tree.at?_append, h]
    rfl
  unfold node?
  split
  · rfl
  · rw [hat]
    rfl

end Scene

namespace Combinator

/-- Descendants of a node are its children and the descendants it shares with those above. -/
theorem leads_descendant_snoc {a q : Path} {i : Nat} :
    descendant.Leads a (q ++ [i]) ↔ a = q ∨ descendant.Leads a q := by
  constructor
  · rintro ⟨r, hr, he⟩
    rcases List.eq_nil_or_concat r with rfl | ⟨r, j, rfl⟩
    · exact absurd rfl hr
    · rw [List.concat_eq_append, ← List.append_assoc] at he
      have hq := (List.append_inj' he rfl).1
      by_cases hnil : r = []
      · subst hnil
        exact .inl (by simpa using hq.symm)
      · exact .inr ⟨r, hnil, hq⟩
  · rintro (rfl | ⟨r, hr, rfl⟩)
    · exact ⟨[i], by simp, rfl⟩
    · exact ⟨r ++ [i], by simp, by simp⟩

/-- A node is a child of its parent alone. -/
theorem leads_child_snoc {a q : Path} {i : Nat} : child.Leads a (q ++ [i]) ↔ a = q := by
  constructor
  · rintro ⟨j, he⟩
    exact (List.append_inj' he rfl).1.symm
  · rintro rfl
    exact ⟨i, rfl⟩

/-- A node is the next sibling of the one right before it. -/
theorem leads_nextSibling_snoc {a q : Path} {i : Nat} :
    nextSibling.Leads a (q ++ [i]) ↔ ∃ j, i = j + 1 ∧ a = q ++ [j] := by
  constructor
  · rintro ⟨r, j, rfl, he⟩
    obtain ⟨rfl, hi⟩ := List.append_inj' he rfl
    exact ⟨j, by simpa using hi, rfl⟩
  · rintro ⟨j, rfl, rfl⟩
    exact ⟨q, j, rfl, rfl⟩

/-- A node is a later sibling of all those before it. -/
theorem leads_laterSibling_snoc {a q : Path} {i : Nat} :
    laterSibling.Leads a (q ++ [i]) ↔ ∃ j, j < i ∧ a = q ++ [j] := by
  constructor
  · rintro ⟨r, j, k, hjk, rfl, he⟩
    obtain ⟨rfl, hi⟩ := List.append_inj' he rfl
    simp only [List.cons.injEq, and_true] at hi
    exact ⟨j, hi ▸ hjk, rfl⟩
  · rintro ⟨j, hj, rfl⟩
    exact ⟨q, j, i, hj, rfl, rfl⟩

/-- Nothing leads to the top of a tree. -/
theorem not_leads_nil (op : Combinator) (a : Path) : ¬ op.Leads a [] := by
  cases op with
  | descendant =>
    rintro ⟨q, hq, he⟩
    exact hq (List.append_eq_nil_iff.1 he.symm).2
  | child =>
    rintro ⟨i, he⟩
    simp at he
  | nextSibling =>
    rintro ⟨q, i, _, he⟩
    simp at he
  | laterSibling =>
    rintro ⟨q, i, j, _, _, he⟩
    simp at he

end Combinator

end DocSelect
