import DocSelect.Proofs.Tree.Order

/-!
# Trees of nodes

Changing the contents of a tree leaves its shape. A tree whose contents are its own nodes shows
where these come to stand when the tree is changed: the contents of the nodes make up the changed
tree, and the nodes in document order are those that are left.
-/

namespace DocSelect.Tree

variable {α β : Type}

/-! ### Trees with other contents -/

mutual
/-- Changes all contents of a tree. -/
def map (f : α → β) : Tree α → Tree β
  | .leaf a => .leaf (f a)
  | .parent a cs => .parent (f a) (mapAll f cs)

/-- Changes all contents of some trees. -/
def mapAll (f : α → β) : List (Tree α) → List (Tree β)
  | [] => []
  | t :: ts => t.map f :: mapAll f ts
end

variable {f : α → β}

/-- Trees are mapped one by one. -/
theorem mapAll_eq_map (ts : List (Tree α)) : mapAll f ts = ts.map (map f) := by
  induction ts with
  | nil => rfl
  | cons t ts ih => rw [mapAll, ih, List.map_cons]

/-- The contents of a mapped tree are those of the tree, mapped. -/
@[simp] theorem content_map (t : Tree α) : (t.map f).content = f t.content := by
  cases t <;> rfl

/-- The children of a mapped tree are those of the tree, mapped. -/
@[simp] theorem children?_map (t : Tree α) :
    (t.map f).children? = t.children?.map (List.map (map f)) := by
  cases t with
  | leaf a => rfl
  | parent a cs => rw [map, mapAll_eq_map]; rfl

/-- Changing contents changes those of the subtrees. -/
theorem at?_map (t : Tree α) (path : Path) : (t.map f).at? path = (t.at? path).map (map f) := by
  induction path generalizing t with
  | nil => rfl
  | cons i path ih =>
    cases t with
    | leaf a => rfl
    | parent a cs =>
      rw [map, mapAll_eq_map, at?, at?, List.getElem?_map, Option.bind_map, Option.map_bind]
      exact congrArg _ (funext ih)

mutual
/-- The contents of a tree, in document order. -/
def contents : Tree α → List α
  | .leaf a => [a]
  | .parent a cs => a :: contentsOfAll cs

/-- The contents of some trees, in document order. -/
def contentsOfAll : List (Tree α) → List α
  | [] => []
  | t :: ts => t.contents ++ contentsOfAll ts
end

/-- The contents of trees one after the other follow each other. -/
theorem contentsOfAll_append (ts us : List (Tree α)) :
    contentsOfAll (ts ++ us) = contentsOfAll ts ++ contentsOfAll us :=
  collect_append rfl (fun _ _ ↦ rfl) ts us

mutual
/-- The contents are those of the nodes. -/
theorem map_content_placesAt : (t : Tree α) → (path : Path) →
    (t.placesAt path).map (·.tree.content) = t.contents
  | .leaf a, path => rfl
  | .parent a cs, path => by
    rw [placesAt, contents, List.map_cons, map_content_placesBelow cs]
    rfl

/-- The contents of siblings are those of the nodes at and below them. -/
theorem map_content_placesBelow : (ts : List (Tree α)) → (path : Path) → (index : Nat) →
    (placesBelow path index ts).map (·.tree.content) = contentsOfAll ts
  | [], path, index => rfl
  | t :: ts, path, index => by
    rw [placesBelow, contentsOfAll, List.map_append, map_content_placesAt t,
      map_content_placesBelow ts]
end

mutual
/-- Changing contents leaves the nodes in their places. -/
theorem placesAt_map : (t : Tree α) → (path : Path) →
    (t.map f).placesAt path = (t.placesAt path).map fun p ↦ ⟨p.path, p.tree.map f⟩
  | .leaf a, path => rfl
  | .parent a cs, path => by
    rw [map, placesAt, placesAt, List.map_cons, placesBelow_mapAll cs, map]

/-- Changing the contents of siblings leaves the nodes at and below them in their places. -/
theorem placesBelow_mapAll : (ts : List (Tree α)) → (path : Path) → (index : Nat) →
    placesBelow path index (mapAll f ts) =
      (placesBelow path index ts).map fun p ↦ ⟨p.path, p.tree.map f⟩
  | [], path, index => rfl
  | t :: ts, path, index => by
    rw [mapAll, placesBelow, placesBelow, List.map_append, placesAt_map t, placesBelow_mapAll ts]
end

/-! ### Nodes as contents -/

mutual
/-- The subtree at a path with its nodes as contents. -/
def located (path : Path) : Tree α → Tree (Place α)
  | .leaf a => .leaf ⟨path, .leaf a⟩
  | .parent a cs => .parent ⟨path, .parent a cs⟩ (locatedAll path 0 cs)

/-- Siblings from an index on with their nodes as contents. -/
def locatedAll (path : Path) (index : Nat) : List (Tree α) → List (Tree (Place α))
  | [] => []
  | t :: ts => t.located (path ++ [index]) :: locatedAll path (index + 1) ts
end

mutual
/-- The contents of the nodes are those of the tree. -/
theorem map_located : (t : Tree α) → (path : Path) → (t.located path).map (·.tree.content) = t
  | .leaf a, path => rfl
  | .parent a cs, path => by
    rw [located, map, mapAll_locatedAll cs]
    rfl

/-- The contents of the nodes are those of the siblings. -/
theorem mapAll_locatedAll : (ts : List (Tree α)) → (path : Path) → (index : Nat) →
    mapAll (·.tree.content) (locatedAll path index ts) = ts
  | [], path, index => rfl
  | t :: ts, path, index => by rw [locatedAll, mapAll, map_located t, mapAll_locatedAll ts]
end

end DocSelect.Tree
