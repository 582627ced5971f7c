import DocSelect.Proofs.Tree.Prune

/-!
# Rejecting in several passes

A test that looks at a node's contents alone gives the same answer wherever the node comes to
stand. Rejecting with two such tests one after the other is the same as rejecting once with
either of them, so the order of passes does not matter and a pass made twice changes nothing
more. With cascading this rests on what a first pass empties: a parent it leaves has children
left if it had any, and the second pass removes it just if nothing of these is left.
-/

namespace DocSelect

variable {α : Type}

/-- A test that looks at the contents of nodes alone. -/
def Place.asks (test : α → Bool) (n : Place α) : Bool := test n.tree.content

namespace Place

/-- Collecting from children what depends on their subtrees alone. -/
theorem filterMap_children {β : Type} {f : Place α → Option β} {g : Tree α → Option β}
    (p : Place α) (h : ∀ q ∈ p.children, f q = g q.tree) :
    p.children.filterMap f = (p.tree.children?.getD []).filterMap g := by
  have htrees : p.children.map tree = p.tree.children?.getD [] := by
    apply List.ext_getElem?
    intro i
    simp [children, List.getElem?_mapIdx, Function.comp_def]
  rw [← htrees, List.filterMap_map]
  exact List.filterMap_congr h

end Place

namespace Tree

variable (test : α → Bool) (cascade : Bool)

/-- What is left of siblings when nodes are rejected by their contents. -/
def rejectAll (ts : List (Tree α)) : List (Tree α) :=
  ts.filterMap (·.reject (Place.asks test) cascade)

variable {test cascade}

@[simp] private theorem rejectAll_nil : rejectAll test cascade [] = [] := rfl

private theorem prune_asks_parent {a : α} {cs : List (Tree α)} (path : Path)
    (h : ∀ t ∈ cs, ∀ path, Place.prune (Place.asks test) cascade ⟨path, t⟩ =
      t.reject (Place.asks test) cascade) :
    Place.prune (Place.asks test) cascade ⟨path, .parent a cs⟩ =
      if test a || cascade && !cs.isEmpty && (rejectAll test cascade cs).isEmpty then none
      else some (.parent a (rejectAll test cascade cs)) := by
  have hrest := Place.filterMap_children (g := (·.reject (Place.asks test) cascade))
    (f := Place.prune (Place.asks test) cascade) ⟨path, .parent a cs⟩ fun q hq ↦ by
      obtain ⟨i, _, hi⟩ := Place.mem_children.1 hq
      rw [at?_singleton] at hi
      exact h q.tree (List.mem_of_getElem? hi) q.path
  rw [Place.prune_parent]
  simp only [hrest]
  rfl

/-- What is left of a subtree when nodes are rejected by their contents does not depend on where
it stands. -/
theorem prune_asks (t : Tree α) (path : Path) :
    Place.prune (Place.asks test) cascade ⟨path, t⟩ = t.reject (Place.asks test) cascade := by
  induction t using induction_up generalizing path with
  | leaf a =>
    have hroot : (leaf a).reject (Place.asks test) cascade =
      Place.prune (Place.asks test) cascade ⟨[], .leaf a⟩ := rfl
    rw [hroot, Place.prune_leaf, Place.prune_leaf]
    rfl
  | parent a cs ih => exact (prune_asks_parent path ih).trans (prune_asks_parent [] ih).symm

/-- Rejecting a leaf by its contents. -/
theorem reject_leaf (a : α) :
    (leaf a).reject (Place.asks test) cascade = if test a then none else some (leaf a) :=
  Place.prune_leaf [] a

/-- Rejecting a parent by its contents rejects among its children. -/
theorem reject_parent (a : α) (cs : List (Tree α)) :
    (parent a cs).reject (Place.asks test) cascade =
      if test a || cascade && !cs.isEmpty && (rejectAll test cascade cs).isEmpty then none
      else some (.parent a (rejectAll test cascade cs)) :=
  prune_asks_parent [] fun t _ path ↦ prune_asks t path

variable {p q : α → Bool}

/-- Two passes over siblings are one if they are for each of them. -/
theorem rejectAll_rejectAll {ts : List (Tree α)}
    (h : ∀ t ∈ ts, (t.reject (Place.asks p) cascade).bind (·.reject (Place.asks q) cascade) =
      t.reject (Place.asks fun a ↦ p a || q a) cascade) :
    rejectAll q cascade (rejectAll p cascade ts) = rejectAll (fun a ↦ p a || q a) cascade ts := by
  rw [rejectAll, rejectAll, List.filterMap_filterMap]
  exact List.filterMap_congr h

/-- Rejecting by two tests one after the other rejects what passes either. -/
theorem reject_bind_reject (t : Tree α) :
    (t.reject (Place.asks p) cascade).bind (·.reject (Place.asks q) cascade) =
      t.reject (Place.asks fun a ↦ p a || q a) cascade := by
  induction t using induction_up with
  | leaf a =>
    rw [reject_leaf, reject_leaf]
    cases hp : p a with
    | true => simp
    | false => simp [reject_leaf]
  | parent a cs ih =>
    have hboth := rejectAll_rejectAll ih
    rw [reject_parent, reject_parent, ← hboth]
    cases hp : p a with
    | true => simp
    | false =>
      -- after the first pass the children are none only if there were none or all have gone
      cases hfirst : rejectAll p cascade cs with
      | nil =>
        by_cases hgone : cascade = true ∧ cs ≠ []
        · simp [hgone]
        · simp [hgone, reject_parent]
      | cons u us =>
        have hne : cs.isEmpty = false := by
          cases cs with
          | nil => cases hfirst
          | cons c cs => rfl
        simp [reject_parent, hne]

/-- Passes that reject nodes by their contents fuse into one, so they commute, and a pass made
twice is the pass made once. -/
theorem reject_passes (p q : α → Bool) (cascade : Bool) (t : Tree α) :
    (t.reject (Place.asks p) cascade).bind (·.reject (Place.asks q) cascade) =
        t.reject (Place.asks fun a ↦ p a || q a) cascade ∧
      (t.reject (Place.asks p) cascade).bind (·.reject (Place.asks q) cascade) =
        (t.reject (Place.asks q) cascade).bind (·.reject (Place.asks p) cascade) ∧
      (t.reject (Place.asks p) cascade).bind (·.reject (Place.asks p) cascade) =
        t.reject (Place.asks p) cascade := by
  refine ⟨reject_bind_reject t, ?_, ?_⟩
  · rw [reject_bind_reject, reject_bind_reject]
    simp only [Bool.or_comm]
  · rw [reject_bind_reject]
    simp only [Bool.or_self]

end Tree

end DocSelect
