import DocSelect.Proofs.Tree.Order
import Mathlib.Data.List.Induction

/-!
# Nodes and their children

The children of a node stand one index below it, in the order of these indexes, and every node
but the root is a child. So what holds of nodes is shown from children to their parents, or from
parents to their children.
-/

namespace DocSelect

variable {α : Type}

namespace Tree

/-- One step down leads to a child. -/
theorem at?_singleton (t : Tree α) (i : Nat) : t.at? [i] = (t.children?.getD [])[i]? := by
  cases t with
  | leaf a => rfl
  | parent a cs =>
    rw [at?, children?, Option.getD_some]
    cases cs[i]? <;> rfl

/-- What holds of leaves, and of a parent whenever it holds of its children, holds of all
trees. -/
theorem induction_up {motive : Tree α → Prop} (leaf : ∀ a, motive (.leaf a))
    (parent : ∀ a cs, (∀ t ∈ cs, motive t) → motive (.parent a cs)) : ∀ t, motive t
  | .leaf a => leaf a
  | .parent a cs => parent a cs fun t h ↦
      have := List.sizeOf_lt_of_mem h
      induction_up leaf parent t

end Tree

namespace Place

/-- The child of a node at an index. -/
theorem getElem?_children (p : Place α) (i : Nat) :
    p.children[i]? = (p.tree.at? [i]).map fun t ↦ ⟨p.path ++ [i], t⟩ := by
  rw [children, List.getElem?_mapIdx, Tree.at?_singleton]

/-- The children of a node stand one index below it. -/
theorem mem_children {p q : Place α} :
    q ∈ p.children ↔ ∃ i, q.path = p.path ++ [i] ∧ p.tree.at? [i] = some q.tree := by
  obtain ⟨path, t⟩ := q
  simp only [List.mem_iff_getElem?, getElem?_children, Option.map_eq_some_iff, mk.injEq]
  constructor
  · rintro ⟨i, u, hu, rfl, rfl⟩
    exact ⟨i, rfl, hu⟩
  · rintro ⟨i, rfl, hi⟩
    exact ⟨i, t, hi, rfl, rfl⟩

/-- The children of a node are in the order of their indexes. -/
theorem ordered_children (p : Place α) : p.children.Pairwise fun a b ↦
    ∃ i j, i < j ∧ a.path = p.path ++ [i] ∧ b.path = p.path ++ [j] := by
  rw [List.pairwise_iff_getElem]
  intro i j hi hj hij
  exact ⟨i, j, hij, by simp [children], by simp [children]⟩

/-- Trees as children of a node, from an index on. -/
def siblings (path : Path) (index : Nat) (ts : List (Tree α)) : List (Place α) :=
  ts.mapIdx fun i t ↦ ⟨path ++ [index + i], t⟩

/-- Without trees there are no places. -/
@[simp] theorem siblings_nil (path : Path) (index : Nat) :
    siblings path index ([] : List (Tree α)) = [] := rfl

/-- The first of some siblings stands at the index, the others behind. -/
@[simp] theorem siblings_cons (path : Path) (index : Nat) (t : Tree α) (ts : List (Tree α)) :
    siblings path index (t :: ts) = ⟨path ++ [index], t⟩ :: siblings path (index + 1) ts := by
  rw [siblings, siblings, List.mapIdx_cons]
  simp only [Nat.add_zero, Nat.add_assoc, Nat.add_comm 1]

/-- The children of a node are siblings from index zero on. -/
theorem children_eq_siblings (p : Place α) :
    p.children = siblings p.path 0 (p.tree.children?.getD []) := by
  simp only [children, siblings, Nat.zero_add]

/-- Whether a node stands above another one. -/
def isAbove (m n : Place α) : Bool := m.path.isPrefixOf n.path && m.path != n.path

/-- The path of a node begins with those of the nodes above it. -/
theorem isAbove_iff {m n : Place α} : m.isAbove n = true ↔ ∃ i r, n.path = m.path ++ i :: r := by
  rw [isAbove, Bool.and_eq_true, List.isPrefixOf_iff_prefix, bne_iff_ne]
  constructor
  · rintro ⟨⟨rest, hrest⟩, hne⟩
    cases rest with
    | nil => exact absurd (by simpa using hrest) hne
    | cons i r => exact ⟨i, r, hrest.symm⟩
  · rintro ⟨i, r, h⟩
    rw [h]
    exact ⟨List.prefix_append _ _, by simp⟩

/-- What holds of a node whenever it holds of its children holds of all nodes. -/
theorem induction_up {motive : Place α → Prop}
    (step : ∀ p, (∀ q ∈ p.children, motive q) → motive p) (p : Place α) : motive p := by
  obtain ⟨path, t⟩ := p
  induction t using Tree.induction_up generalizing path with
  | leaf a => exact step _ (List.forall_mem_nil _)
  | parent a cs ih =>
    refine step _ fun q hq ↦ ?_
    obtain ⟨i, _, hi⟩ := mem_children.1 hq
    rw [Tree.at?_singleton] at hi
    exact ih q.tree (List.mem_of_getElem? hi) q.path

end Place

namespace Tree

/-- The children of a tree's nodes are nodes of the tree. -/
theorem mem_places_child {t : Tree α} {n m : Place α} (hn : n ∈ t.places) (hm : m ∈ n.children) :
    m ∈ t.places := by
  obtain ⟨i, hpath, hi⟩ := Place.mem_children.1 hm
  rw [mem_places, hpath, at?_append, mem_places.1 hn]
  exact hi

/-- The nodes of a tree stand in different places. -/
theorem eq_of_path {t : Tree α} {n m : Place α} (hn : n ∈ t.places) (hm : m ∈ t.places)
    (h : n.path = m.path) : n = m := by
  obtain ⟨path, u⟩ := n
  obtain ⟨path', v⟩ := m
  obtain rfl : path = path' := h
  obtain rfl : u = v := Option.some.inj ((mem_places.1 hn).symm.trans (mem_places.1 hm))
  rfl

/-- The root is a node of its tree. -/
theorem root_mem_places (t : Tree α) : Place.root t ∈ t.places := mem_places.2 rfl

/-- A node below the root is a child, at the last index of its path. -/
theorem exists_parent {t : Tree α} {m : Place α} (hm : m ∈ t.places) {path : Path} {i : Nat}
    (h : m.path = path ++ [i]) : ∃ n ∈ t.places, n.path = path ∧ n.children[i]? = some m := by
  obtain ⟨full, u⟩ := m
  obtain rfl : full = path ++ [i] := h
  have hat := mem_places.1 hm
  rw [at?_append, Option.bind_eq_some_iff] at hat
  obtain ⟨v, hv, hu⟩ := hat
  exact ⟨⟨path, v⟩, mem_places.2 hv, rfl, by rw [Place.getElem?_children, hu, Option.map_some]⟩

/-- What holds of the root, and of the children of the nodes it holds of, holds of all nodes. -/
theorem places_induction {t : Tree α} {motive : Place α → Prop} (root : motive (.root t))
    (child : ∀ n ∈ t.places, motive n → ∀ m ∈ n.children, motive m) :
    ∀ n ∈ t.places, motive n := by
  intro m hm
  generalize hpath : m.path = path
  induction path using List.reverseRecOn generalizing m with
  | nil => exact eq_of_path (root_mem_places t) hm hpath.symm ▸ root
  | append_singleton path i ih =>
    obtain ⟨n, hn, hparent, hchild⟩ := exists_parent hm hpath
    exact child n hn (ih n hn hparent) m (List.mem_of_getElem? hchild)

end Tree

end DocSelect
