import DocSelect.Tree.Node
import DocSelect.Proofs.Tree.Lift
import DocSelect.Proofs.Tree.Located
import DocSelect.Proofs.Tree.Places

/-!
# What lifting keeps

Lifting takes from a tree the parents of a type below the root, and nothing else. The other nodes
stay in document order with their contents, and each hangs from the nearest node above it that
stays. The text stays too if no node that is lifted has a value, which would hide the texts below
it. To see where the nodes of a lifted tree come from, a tree is lifted whose contents are its own
nodes: what hangs from a node then is reached from it through lifted nodes alone.
-/

namespace DocSelect

variable {α β : Type}

/-- Whether a node is a parent whose contents pass a test. -/
def Place.wraps (test : α → Bool) (n : Place α) : Bool :=
  n.tree.children?.isSome && test n.tree.content

/-- Whether a node is one that lifting by a test takes from a tree, which the root never is. -/
def Place.isLifted (test : α → Bool) (n : Place α) : Bool := !n.path.isEmpty && n.wraps test

namespace Tree

/-- Whether a node is the nearest one above another among those that stay. -/
structure Nearest (t : Tree α) (stays : Place α → Bool) (m k : Place α) : Prop where
  mem : m ∈ t.places
  remains : stays m = true
  isAbove : m.isAbove k = true
  nearest : ∀ n ∈ t.places, stays n = true → n.isAbove k = true → n.path <+: m.path

/-- Whether a tree is what another one becomes when only some of its nodes stay. Each node comes
from one that stays, its source. -/
structure Contracts (t : Tree α) (stays : Place α → Bool) (r : Tree α)
    (source : Place α → Place α) : Prop where
  /-- The sources, in document order, are the nodes that stay. -/
  nodes : r.places.map source = t.places.filter stays
  content : ∀ m ∈ r.places, m.tree.content = (source m).tree.content
  leaf : ∀ m ∈ r.places, m.tree.children? = none ↔ (source m).tree.children? = none
  /-- A node is a child of the nearest node above it that stays. -/
  nearest : ∀ m ∈ r.places, ∀ k ∈ m.children, t.Nearest stays (source m) (source k)

/-! ### Lifting a tree of nodes -/

variable {f : α → β}

private theorem unwrapBy_map (p : β → Bool) (t : Tree α) :
    (t.map f).unwrapBy p = (t.unwrapBy fun a ↦ p (f a)).map (map f) := by
  cases t with
  | leaf a => rfl
  | parent a cs =>
    rw [map, unwrapBy, unwrapBy, mapAll_eq_map]
    split <;> simp [map, mapAll_eq_map]

mutual
/-- A tree is lifted alike when its contents are changed. -/
theorem liftBy_map (p : β → Bool) :
    (t : Tree α) → (t.map f).liftBy p = (t.liftBy fun a ↦ p (f a)).map f
  | .leaf a => rfl
  | .parent a cs => by rw [map, liftBy, liftBy, map, liftAllBy_mapAll p cs]

/-- Siblings are lifted alike when their contents are changed. -/
theorem liftAllBy_mapAll (p : β → Bool) : (ts : List (Tree α)) →
    liftAllBy p (mapAll f ts) = mapAll f (liftAllBy (fun a ↦ p (f a)) ts)
  | [] => rfl
  | t :: ts => by
    rw [mapAll, liftAllBy, liftAllBy, liftBy_map p t, unwrapBy_map, liftAllBy_mapAll p ts,
      mapAll_eq_map, mapAll_eq_map, List.map_append]
end

variable {test : α → Bool}

mutual
/-- What lifting puts in the place of a node, in document order, are the node if it stays and the
nodes below it that stay. -/
theorem contentsOfAll_unwrapBy_located : (t : Tree α) → (path : Path) →
    contentsOfAll (((t.located path).liftBy fun n ↦ test n.tree.content).unwrapBy fun n ↦
      test n.tree.content) = (t.placesAt path).filter fun n ↦ !n.wraps test
  | .leaf a, path => rfl
  | .parent a cs, path => by
    have hwraps : Place.wraps test ⟨path, .parent a cs⟩ = test a := rfl
    rw [located, liftBy, unwrapBy, placesAt, List.filter_cons, hwraps,
      ← contentsOfAll_liftAllBy_locatedAll cs]
    cases h : test a <;> simp [content, h, contentsOfAll, contents]

/-- What lifting leaves of siblings, in document order, are the nodes at and below them that
stay. -/
theorem contentsOfAll_liftAllBy_locatedAll : (ts : List (Tree α)) → (path : Path) →
    (index : Nat) → contentsOfAll (liftAllBy (fun n ↦ test n.tree.content)
      (locatedAll path index ts)) = (placesBelow path index ts).filter fun n ↦ !n.wraps test
  | [], path, index => rfl
  | t :: ts, path, index => by
    rw [locatedAll, liftAllBy, placesBelow, contentsOfAll_append, List.filter_append,
      contentsOfAll_unwrapBy_located t, contentsOfAll_liftAllBy_locatedAll ts]
end

end Tree

/-! ### What a node hangs from -/

namespace Place

/-- Whether a node is a child of another one once the nodes between them are lifted. -/
inductive Inherits (test : α → Bool) : Place α → Place α → Prop where
  | child {p k : Place α} : k ∈ p.children → Inherits test p k
  | through {p m k : Place α} : m ∈ p.children → m.wraps test = true → Inherits test m k →
      Inherits test p k

/-- The subtree at a node with its nodes as contents, lifted. -/
def lifted (test : α → Bool) (p : Place α) : Tree (Place α) :=
  (p.tree.located p.path).liftBy fun n ↦ test n.tree.content

variable {test : α → Bool}

@[simp] private theorem content_lifted (test : α → Bool) (p : Place α) :
    (p.lifted test).content = p := by
  obtain ⟨path, t⟩ := p
  cases t <;> rfl

/-- The lifted subtree at a leaf is a leaf, and the others are parents. -/
theorem children?_lifted_eq_none_iff (p : Place α) :
    (p.lifted test).children? = none ↔ p.tree.children? = none := by
  obtain ⟨path, t⟩ := p
  cases t with
  | leaf a => exact iff_of_true rfl rfl
  | parent a cs => simp [lifted, Tree.located, Tree.liftBy, Tree.children?]

private theorem liftAllBy_locatedAll (test : α → Bool) (path : Path) (index : Nat)
    (ts : List (Tree α)) :
    Tree.liftAllBy (fun n : Place α ↦ test n.tree.content) (Tree.locatedAll path index ts) =
      (siblings path index ts).flatMap fun m ↦
        (m.lifted test).unwrapBy fun n ↦ test n.tree.content := by
  induction ts generalizing index with
  | nil => rfl
  | cons t ts ih =>
    rw [Tree.locatedAll, Tree.liftAllBy, ih, siblings_cons, List.flatMap_cons]
    rfl

/-- The children of the lifted subtree at a node are put in the places of its children. -/
theorem children_lifted (p : Place α) :
    (p.lifted test).children?.getD [] = p.children.flatMap fun m ↦
      (m.lifted test).unwrapBy fun n ↦ test n.tree.content := by
  obtain ⟨path, t⟩ := p
  rw [children_eq_siblings]
  cases t with
  | leaf a => rfl
  | parent a cs => exact liftAllBy_locatedAll test path 0 cs

/-- What lifting puts in the place of a node are its children if it is lifted, and else itself. -/
theorem mem_unwrapBy_lifted {m : Place α} {u : Tree (Place α)}
    (h : u ∈ (m.lifted test).unwrapBy fun n ↦ test n.tree.content) :
    u = m.lifted test ∨ m.wraps test = true ∧ u ∈ (m.lifted test).children?.getD [] := by
  obtain ⟨path, t⟩ := m
  cases t with
  | leaf a => exact .inl (List.mem_singleton.1 h)
  | parent a cs =>
    rw [lifted, Tree.located, Tree.liftBy, Tree.unwrapBy] at h
    split at h
    · next htest => exact .inr ⟨htest, h⟩
    · exact .inl (List.mem_singleton.1 h)

/-- The children of the lifted subtree at a node are the lifted subtrees at the nodes that hang
from it. -/
theorem inherits_content (p : Place α) : ∀ u ∈ (p.lifted test).children?.getD [],
    u = u.content.lifted test ∧ p.Inherits test u.content := by
  induction p using induction_up with
  | step p ih =>
    intro u hu
    rw [children_lifted, List.mem_flatMap] at hu
    obtain ⟨m, hm, hu⟩ := hu
    rcases mem_unwrapBy_lifted hu with rfl | ⟨hwraps, hu⟩
    · rw [content_lifted]
      exact ⟨rfl, .child hm⟩
    · obtain ⟨hlifted, hinherits⟩ := ih m hm u hu
      exact ⟨hlifted, .through hm hwraps hinherits⟩

/-- A node stands below what it hangs from. -/
theorem Inherits.isAbove {p k : Place α} (h : p.Inherits test k) : p.isAbove k = true := by
  rw [isAbove_iff]
  induction h with
  | child hk =>
    obtain ⟨i, hpath, _⟩ := mem_children.1 hk
    exact ⟨i, [], hpath⟩
  | through hm _ _ ih =>
    obtain ⟨i, hpath, _⟩ := mem_children.1 hm
    obtain ⟨j, r, hrest⟩ := ih
    exact ⟨i, j :: r, by rw [hrest, hpath, List.append_assoc]; rfl⟩

/-- What hangs from nodes of a tree are nodes of the tree. -/
theorem Inherits.mem_places {t : Tree α} {p k : Place α} (h : p.Inherits test k)
    (hp : p ∈ t.places) : k ∈ t.places := by
  induction h with
  | child hk => exact Tree.mem_places_child hp hk
  | through hm _ _ ih => exact ih (Tree.mem_places_child hp hm)

/-- The nodes between a node and what it hangs from are lifted. -/
theorem Inherits.wraps {t : Tree α} {p k n : Place α} (h : p.Inherits test k)
    (hp : p ∈ t.places) (hn : n ∈ t.places) (habove : n.isAbove k = true) :
    n.path <+: p.path ∨ n.wraps test = true := by
  induction h with
  | @child p k hk =>
    obtain ⟨i, hpath, _⟩ := mem_children.1 hk
    obtain ⟨j, r, hbelow⟩ := isAbove_iff.1 habove
    have hprefix : n.path <+: p.path ++ [i] := ⟨j :: r, by rw [← hbelow, hpath]⟩
    rcases List.prefix_concat_iff.1 hprefix with heq | hle
    · rw [← hpath, hbelow] at heq
      exact absurd heq (by simp)
    · exact .inl hle
  | @through p m k hm hwraps _ ih =>
    obtain ⟨i, hpath, _⟩ := mem_children.1 hm
    have hmt := Tree.mem_places_child hp hm
    rcases ih hmt habove with hle | hlifted
    · rw [hpath, List.prefix_concat_iff, ← hpath] at hle
      rcases hle with heq | hle
      · exact .inr (Tree.eq_of_path hn hmt heq ▸ hwraps)
      · exact .inl hle
    · exact .inr hlifted

end Place

/-! ### Lifting a type -/

namespace Tree

variable {test : α → Bool}

/-- The node of a tree that a node of the lifted tree comes from. -/
def liftSource (test : α → Bool) (t : Tree α) (m : Place α) : Place α :=
  ((((Place.root t).lifted test).at? m.path).map content).getD m

/-- The tree whose contents are the nodes that are left has the contents of the lifted tree. -/
theorem map_lifted_root (t : Tree α) :
    ((Place.root t).lifted test).map (·.tree.content) = t.liftBy test := by
  have h := liftBy_map (f := fun n : Place α ↦ n.tree.content) test (t.located [])
  rw [map_located] at h
  exact h.symm

/-- The subtrees of the tree of the nodes that are left are the lifted subtrees at these nodes. -/
theorem lifted_content (t : Tree α) {p : Place (Place α)}
    (hp : p ∈ ((Place.root t).lifted test).places) :
    p.tree = p.tree.content.lifted test ∧ p.tree.content ∈ t.places := by
  refine places_induction (motive := fun p ↦ p.tree = p.tree.content.lifted test ∧
    p.tree.content ∈ t.places) ?_ (fun n _ hn m hm ↦ ?_) p hp
  · have hroot : ((Place.root t).lifted test).content = Place.root t := Place.content_lifted test _
    exact ⟨(congrArg (Place.lifted test) hroot).symm, hroot.symm ▸ root_mem_places t⟩
  · obtain ⟨i, _, hi⟩ := Place.mem_children.1 hm
    rw [at?_singleton, hn.1] at hi
    obtain ⟨hlifted, hinherits⟩ := Place.inherits_content _ _ (List.mem_of_getElem? hi)
    exact ⟨hlifted, hinherits.mem_places hn.2⟩

/-- A node of the lifted tree is the root of what lifting leaves at its source. -/
theorem at?_liftSource (t : Tree α) {m : Place α} (hm : m ∈ (t.liftBy test).places) :
    t.liftSource test m ∈ t.places ∧
      ((Place.root t).lifted test).at? m.path = some ((t.liftSource test m).lifted test) ∧
      m.tree = ((t.liftSource test m).lifted test).map (·.tree.content) := by
  have hat := mem_places.1 hm
  rw [← map_lifted_root, at?_map] at hat
  obtain ⟨u, hu, htree⟩ := Option.map_eq_some_iff.1 hat
  obtain ⟨hlifted, hmem⟩ := lifted_content t (mem_places.2 hu : ⟨m.path, u⟩ ∈ _)
  dsimp only at hlifted hmem
  have hsource : t.liftSource test m = u.content := by
    rw [liftSource, hu, Option.map_some, Option.getD_some]
  rw [hsource, ← hlifted]
  exact ⟨hmem, hu, htree.symm⟩

/-- The sources of the nodes of the lifted tree, in document order, are the nodes that are not
lifted. -/
theorem map_liftSource_places (t : Tree α) :
    (t.liftBy test).places.map (t.liftSource test) =
      t.places.filter fun n ↦ !n.isLifted test := by
  have hcontents : (t.liftBy test).places.map (t.liftSource test) =
      ((Place.root t).lifted test).contents := by
    rw [← map_content_placesAt _ [], ← map_lifted_root, places, placesAt_map, List.map_map]
    refine List.map_congr_left fun p hp ↦ ?_
    rw [Function.comp_apply, liftSource, mem_places.1 hp, Option.map_some, Option.getD_some]
  rw [hcontents]
  cases t with
  | leaf a => rfl
  | parent a cs =>
    have hbelow : (placesBelow [] 0 cs).filter (fun n ↦ !n.wraps test) =
        (placesBelow [] 0 cs).filter fun n ↦ !n.isLifted test := by
      refine List.filter_congr fun n hn ↦ ?_
      obtain ⟨i, r, u, _, rfl⟩ := (mem_placesBelow cs).1 hn
      rfl
    rw [places, placesAt, List.filter_cons, ← hbelow, ← contentsOfAll_liftAllBy_locatedAll]
    rfl

/-- Lifting by a test leaves the nodes that it does not lift. -/
theorem contracts_liftBy (test : α → Bool) (t : Tree α) :
    t.Contracts (fun n ↦ !n.isLifted test) (t.liftBy test) (t.liftSource test) where
  nodes := t.map_liftSource_places
  content m hm := by
    rw [(t.at?_liftSource hm).2.2, content_map, Place.content_lifted]
  leaf m hm := by
    rw [(t.at?_liftSource hm).2.2, children?_map, Option.map_eq_none_iff,
      Place.children?_lifted_eq_none_iff]
  nearest m hm k hk := by
    obtain ⟨hsource, hat, _⟩ := t.at?_liftSource hm
    have hinherits : (t.liftSource test m).Inherits test (t.liftSource test k) := by
      obtain ⟨i, hpath, _⟩ := Place.mem_children.1 hk
      have hatk := (t.at?_liftSource (mem_places_child hm hk)).2.1
      rw [hpath, at?_append, hat, Option.bind_some, at?_singleton] at hatk
      have hcontent := (Place.inherits_content _ _ (List.mem_of_getElem? hatk)).2
      rwa [Place.content_lifted] at hcontent
    have hremains : t.liftSource test m ∈ t.places.filter fun n ↦ !n.isLifted test := by
      rw [← map_liftSource_places]
      exact List.mem_map_of_mem hm
    refine ⟨hsource, (List.mem_filter.1 hremains).2, hinherits.isAbove, fun n hn hstays habove ↦ ?_⟩
    rcases hinherits.wraps hsource hn habove with hle | hwraps
    · exact hle
    · -- of the nodes that pass the test only the root stays
      have hroot : n.path = [] := by simpa [Place.isLifted, hwraps] using hstays
      exact hroot ▸ List.nil_prefix

/-! ### Texts -/

section Text

variable [Element α]

private theorem charsOfAll_append (ts us : List (Tree α)) :
    charsOfAll (ts ++ us) = charsOfAll ts ++ charsOfAll us :=
  collect_append rfl (fun _ _ ↦ rfl) ts us

mutual
/-- What lifting puts in the place of a node has its text, if no node that is lifted has a
value. -/
theorem charsOfAll_unwrapBy : (t : Tree α) → (path : Path) →
    (∀ n ∈ t.placesAt path, n.wraps test = true → Element.value? n.tree.content = none) →
    charsOfAll ((t.liftBy test).unwrapBy test) = t.chars
  | .leaf a, path, h => by rw [liftBy, unwrapBy, charsOfAll, charsOfAll, List.append_nil]
  | .parent a cs, path, h => by
    have hrest := charsOfAll_liftAllBy cs path 0 fun n hn ↦ h n (List.mem_cons_of_mem _ hn)
    rw [liftBy, unwrapBy]
    split
    · next htest =>
      have hvalue : Element.value? a = none := h ⟨path, .parent a cs⟩ List.mem_cons_self htest
      rw [hrest, chars, hvalue]
    · rw [charsOfAll, charsOfAll, List.append_nil, chars, chars, hrest]

/-- Lifting among siblings leaves their texts, if no node that is lifted has a value. -/
theorem charsOfAll_liftAllBy : (ts : List (Tree α)) → (path : Path) → (index : Nat) →
    (∀ n ∈ placesBelow path index ts, n.wraps test = true →
      Element.value? n.tree.content = none) →
    charsOfAll (liftAllBy test ts) = charsOfAll ts
  | [], path, index, h => rfl
  | t :: ts, path, index, h => by
    rw [liftAllBy, charsOfAll_append, charsOfAll,
      charsOfAll_unwrapBy t (path ++ [index]) fun n hn ↦ h n (List.mem_append_left _ hn),
      charsOfAll_liftAllBy ts path (index + 1) fun n hn ↦ h n (List.mem_append_right _ hn)]
end

/-- Lifting leaves the text, if no node that is lifted has a value. -/
theorem text_liftBy (t : Tree α)
    (h : ∀ n ∈ t.places, n.isLifted test = true → Element.value? n.tree.content = none) :
    (t.liftBy test).text = t.text := by
  cases t with
  | leaf a => rfl
  | parent a cs =>
    have hrest : charsOfAll (liftAllBy test cs) = charsOfAll cs := by
      refine charsOfAll_liftAllBy cs [] 0 fun n hn hwraps ↦ h n (List.mem_cons_of_mem _ hn) ?_
      obtain ⟨i, r, u, _, rfl⟩ := (mem_placesBelow cs).1 hn
      exact hwraps
    rw [text, text, liftBy, chars, chars, hrest]

/-- Lifting a type leaves the nodes of a tree that are not lifted, each one a child of the nearest
node above it that is left, and with them the text if no node that is lifted has a value. -/
theorem contracts_lift (type : String) (t : Tree α) :
    (∃ source, t.Contracts (fun n ↦ !n.isLifted (hasType type)) (t.lift type) source) ∧
      ((∀ n ∈ t.places, n.isLifted (hasType type) = true →
        Element.value? n.tree.content = none) → (t.lift type).text = t.text) := by
  rw [lift_eq_liftBy]
  exact ⟨⟨_, contracts_liftBy _ t⟩, t.text_liftBy⟩

/-- A parent with a wrapped text, an empty wrapper and a wrapper of wrappers, one of them a leaf. -/
theorem contracts_lift_sections :
    let t : Node := .ofChildren "section" [.ofChildren "section" [.ofText "text" "a",
      .ofChildren "section" [], .ofChildren "section" [.ofType "section"]], .ofText "text" "b"]
    (∀ n ∈ t.places, n.isLifted (hasType "section") = true →
        Element.value? n.tree.content = none) ∧
      (∃ source, t.Contracts (fun n ↦ !n.isLifted (hasType "section")) (t.lift "section") source) ∧
      (t.lift "section").text = t.text := by
  intro t
  have h : ∀ n ∈ t.places, n.isLifted (hasType "section") = true →
      Element.value? n.tree.content = none := by decide
  exact ⟨h, (contracts_lift "section" t).1, (contracts_lift "section" t).2 h⟩

end Text

end Tree

end DocSelect
