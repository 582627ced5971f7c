import DocSelect.Tree.Prune
import DocSelect.Proofs.Tree.Places

/-!
# What pruning keeps

A node is dead if its test drops it or, with cascading, if it has children and all of them are
dead. Pruning leaves nothing of a tree whose root is dead. Of any other tree it leaves the nodes
that have no dead node at or above them: each keeps its contents, leaves stay leaves, and both
the parents and the order of siblings are as they were.
-/

namespace DocSelect

variable {α : Type}

/-! ### Survivors -/

/-- The nodes that cannot stay: their test drops them or, with cascading, they have children and
none of these stays. -/
inductive Place.Dead (drop : Place α → Bool) (cascade : Bool) : Place α → Prop where
  | dropped {n : Place α} : drop n = true → Dead drop cascade n
  | emptied {n : Place α} : cascade = true → n.children ≠ [] →
      (∀ m ∈ n.children, Dead drop cascade m) → Dead drop cascade n

namespace Tree

/-- The nodes of a tree that have no dead node at or above them. -/
def Survivor (dead : Place α → Prop) (t : Tree α) (n : Place α) : Prop :=
  n ∈ t.places ∧ ∀ m ∈ t.places, m.path <+: n.path → ¬ dead m

/-- Whether a tree consists of some nodes of another one and is otherwise like it. Each of its
nodes comes from a node of the other tree, its source. -/
structure Restricts (t : Tree α) (stays : Place α → Prop) (r : Tree α)
    (source : Place α → Place α) : Prop where
  /-- The sources are different nodes, in the same order. -/
  order : (r.places.map source).Sublist t.places
  stays_iff : ∀ n, n ∈ r.places.map source ↔ stays n
  root : source (.root r) = .root t
  /-- The sources of children are children of the source, in the same order. -/
  siblings : ∀ m ∈ r.places, (m.children.map source).Sublist (source m).children
  content : ∀ m ∈ r.places, m.tree.content = (source m).tree.content
  leaf : ∀ m ∈ r.places, m.tree.children? = none ↔ (source m).tree.children? = none

/-- Whether this is what pruning by what is dead leaves of a tree: nothing if its root is dead, and
otherwise the survivors. -/
def Prunes (dead : Place α → Prop) (t : Tree α) : Option (Tree α) → Prop
  | none => dead (.root t)
  | some r => ¬ dead (.root t) ∧ ∃ source, t.Restricts (t.Survivor dead) r source

/-- The root survives if it is not dead. -/
theorem survivor_root {dead : Place α → Prop} {t : Tree α} :
    t.Survivor dead (.root t) ↔ ¬ dead (.root t) := by
  refine ⟨fun h ↦ h.2 _ (root_mem_places t) List.prefix_rfl,
    fun h ↦ ⟨root_mem_places t, fun m hm hle ↦ ?_⟩⟩
  exact eq_of_path (root_mem_places t) hm (List.prefix_nil.1 hle).symm ▸ h

/-- A child survives with its parent if it is not dead. -/
theorem survivor_child {dead : Place α → Prop} {t : Tree α} {n m : Place α} (hn : n ∈ t.places)
    (hm : m ∈ n.children) : t.Survivor dead m ↔ t.Survivor dead n ∧ ¬ dead m := by
  have hmt := mem_places_child hn hm
  obtain ⟨i, hpath, _⟩ := Place.mem_children.1 hm
  constructor
  · rintro ⟨_, h⟩
    refine ⟨⟨hn, fun k hk hle ↦ h k hk (hle.trans ?_)⟩, h m hmt List.prefix_rfl⟩
    exact ⟨[i], hpath.symm⟩
  · rintro ⟨⟨_, h⟩, hdead⟩
    refine ⟨hmt, fun k hk hle ↦ ?_⟩
    rw [hpath, List.prefix_concat_iff] at hle
    rcases hle with heq | hle
    · exact eq_of_path hmt hk (hpath.trans heq.symm) ▸ hdead
    · exact h k hk hle

end Tree

/-! ### One node -/

namespace Place

variable (drop : Place α → Bool) (cascade : Bool)

/-- What pruning leaves of the subtree at a node. -/
def prune (p : Place α) : Option (Tree α) :=
  (p.tree.rebuild (fun n (_ : Unit) ↦ (!drop n, ())) cascade p.path ()).1

/-- The children that pruning leaves something of. -/
def kept (p : Place α) : List (Place α) := p.children.filter fun q ↦ (q.prune drop cascade).isSome

variable {drop cascade}

private theorem rebuildAll_eq (path : Path) (index : Nat) (ts : List (Tree α)) :
    (Tree.rebuildAll (fun n (_ : Unit) ↦ (!drop n, ())) cascade path index ts ()).1 =
      (siblings path index ts).filterMap (prune drop cascade) := by
  induction ts generalizing index with
  | nil => rfl
  | cons t ts ih =>
    rw [Tree.rebuildAll, siblings_cons, List.filterMap_cons]
    simp only [ih]
    cases h : prune drop cascade ⟨path ++ [index], t⟩ with
    | none =>
      rw [prune] at h
      simp [h]
    | some u =>
      rw [prune] at h
      simp [h]

/-- Pruning a leaf asks its test only. -/
theorem prune_leaf (path : Path) (a : α) :
    prune drop cascade ⟨path, .leaf a⟩ = if drop ⟨path, .leaf a⟩ then none else some (.leaf a) := by
  rw [prune, Tree.rebuild]
  cases drop ⟨path, .leaf a⟩ <;> rfl

/-- Pruning a parent prunes its children. -/
theorem prune_parent (path : Path) (a : α) (cs : List (Tree α)) :
    prune drop cascade ⟨path, .parent a cs⟩ =
      let p : Place α := ⟨path, .parent a cs⟩
      let rest := p.children.filterMap (prune drop cascade)
      if drop p || cascade && !cs.isEmpty && rest.isEmpty then none
      else some (.parent a rest) := by
  have hrest := @rebuildAll_eq α drop cascade path 0 cs
  rw [prune, Tree.rebuild]
  simp only [children_eq_siblings, Tree.children?, Option.getD_some, ← hrest]
  cases drop ⟨path, .parent a cs⟩ <;> simp

/-- Pruning leaves something of a node if its test does not drop it and, with cascading, something
of its children is left if it has any. What is left has the same contents at its root. -/
theorem prune_eq_some {p : Place α} {r : Tree α} (h : p.prune drop cascade = some r) :
    drop p = false ∧
      (cascade = true → p.children ≠ [] → p.children.filterMap (prune drop cascade) ≠ []) ∧
      r.content = p.tree.content ∧
      r.children? = p.tree.children?.map fun _ ↦ p.children.filterMap (prune drop cascade) := by
  obtain ⟨path, t⟩ := p
  cases t with
  | leaf a =>
    rw [prune_leaf] at h
    split at h
    · cases h
    · next hdrop =>
      obtain rfl := Option.some.inj h
      exact ⟨by simpa using hdrop, fun _ hne ↦ absurd rfl hne, rfl, rfl⟩
  | parent a cs =>
    rw [prune_parent] at h
    dsimp only at h
    split at h
    · cases h
    · next hleft =>
      obtain rfl := Option.some.inj h
      simp only [Bool.or_eq_true, Bool.and_eq_true, not_or, not_and, Bool.not_eq_true] at hleft
      refine ⟨hleft.1, fun hc hne hnil ↦ ?_, rfl, rfl⟩
      have hcs : cs ≠ [] := by
        rintro rfl
        exact hne rfl
      exact absurd (List.isEmpty_iff.2 hnil)
        (Bool.not_eq_true _ ▸ hleft.2 ⟨hc, by simpa using hcs⟩)

/-- Pruning leaves nothing of a node if its test drops it or, with cascading, nothing is left of
its children, of which there are some. -/
theorem prune_eq_none {p : Place α} (h : p.prune drop cascade = none) :
    drop p = true ∨ cascade = true ∧ p.children ≠ [] ∧
      p.children.filterMap (prune drop cascade) = [] := by
  obtain ⟨path, t⟩ := p
  cases t with
  | leaf a =>
    rw [prune_leaf] at h
    split at h
    · next hdrop => exact .inl hdrop
    · cases h
  | parent a cs =>
    rw [prune_parent] at h
    dsimp only at h
    split at h
    · next hgone =>
      simp only [Bool.or_eq_true, Bool.and_eq_true] at hgone
      rcases hgone with hdrop | ⟨⟨hc, hne⟩, hnil⟩
      · exact .inl hdrop
      · have hcs : cs ≠ [] := by simpa using hne
        exact .inr ⟨hc, by simpa [children, Tree.children?] using hcs, by simpa using hnil⟩
    · cases h

/-- Pruning leaves nothing of the dead nodes, and of these alone. -/
theorem prune_eq_none_iff (p : Place α) : p.prune drop cascade = none ↔ p.Dead drop cascade := by
  induction p using induction_up with
  | step p ih =>
    constructor
    · intro h
      rcases prune_eq_none h with hdrop | ⟨hc, hne, hnil⟩
      · exact .dropped hdrop
      · exact .emptied hc hne fun q hq ↦ (ih q hq).1 (List.filterMap_eq_nil_iff.1 hnil q hq)
    · intro h
      cases hr : p.prune drop cascade with
      | none => rfl
      | some r =>
        obtain ⟨hdrop, hleft, _, _⟩ := prune_eq_some hr
        cases h with
        | dropped hd => exact absurd hd (by simp [hdrop])
        | emptied hc hne hall =>
          exact absurd (List.filterMap_eq_nil_iff.2 fun q hq ↦ (ih q hq).2 (hall q hq))
            (hleft hc hne)

/-- The nodes that something is left of are those that are not dead. -/
theorem isSome_prune_iff (p : Place α) :
    (p.prune drop cascade).isSome = true ↔ ¬ p.Dead drop cascade := by
  rw [← prune_eq_none_iff, Option.isSome_iff_ne_none]

/-- The children that are kept are those that are not dead. -/
theorem mem_kept {p q : Place α} :
    q ∈ p.kept drop cascade ↔ q ∈ p.children ∧ ¬ q.Dead drop cascade := by
  rw [kept, List.mem_filter, isSome_prune_iff]

/-- The children that are kept are in the order of their indexes. -/
theorem ordered_kept (p : Place α) : (p.kept drop cascade).Pairwise fun a b ↦
    ∃ i j, i < j ∧ a.path = p.path ++ [i] ∧ b.path = p.path ++ [j] :=
  p.ordered_children.sublist List.filter_sublist

private theorem getElem?_filterMap_prune (ps : List (Place α)) (i : Nat) :
    (ps.filterMap (prune drop cascade))[i]? =
      (ps.filter fun q ↦ (q.prune drop cascade).isSome)[i]?.bind (prune drop cascade) := by
  induction ps generalizing i with
  | nil => rfl
  | cons p ps ih =>
    cases hp : p.prune drop cascade with
    | none => simp [hp, ih]
    | some r =>
      cases i with
      | zero => simp [hp]
      | succ i => simp [hp, ih]

/-- What is left of a node has as children what is left of the children that are kept. -/
theorem at?_singleton_prune {p : Place α} {r : Tree α} (h : p.prune drop cascade = some r)
    (i : Nat) : r.at? [i] = (p.kept drop cascade)[i]?.bind (prune drop cascade) := by
  obtain ⟨_, _, _, hchildren⟩ := prune_eq_some h
  rw [Tree.at?_singleton, hchildren, kept, ← getElem?_filterMap_prune]
  cases hcs : p.tree.children? with
  | none => simp [children, hcs]
  | some cs => rfl

/-! ### Sources -/

/-- The node that what is left at a path comes from. -/
def origin (drop : Place α → Bool) (cascade : Bool) (p : Place α) : Path → Option (Place α)
  | [] => some p
  | i :: path => (p.kept drop cascade)[i]?.bind fun q ↦ q.origin drop cascade path

/-- Origins are found step by step. -/
theorem origin_snoc (p : Place α) (path : Path) (i : Nat) :
    p.origin drop cascade (path ++ [i]) =
      (p.origin drop cascade path).bind fun q ↦ (q.kept drop cascade)[i]? := by
  induction path generalizing p with
  | nil =>
    simp only [List.nil_append, origin, Option.bind_some]
    cases (p.kept drop cascade)[i]? <;> rfl
  | cons j path ih =>
    rw [List.cons_append, origin, origin, Option.bind_assoc]
    simp only [ih]

/-- What is left at a path is what pruning leaves of the node that it comes from. -/
theorem at?_prune {p : Place α} {r : Tree α} (h : p.prune drop cascade = some r) (path : Path) :
    r.at? path = (p.origin drop cascade path).bind (prune drop cascade) := by
  induction path generalizing p r with
  | nil => exact h.symm
  | cons i path ih =>
    rw [← List.singleton_append, Tree.at?_append, at?_singleton_prune h, List.singleton_append,
      origin, Option.bind_assoc, Option.bind_assoc]
    cases hq : (p.kept drop cascade)[i]? with
    | none => rfl
    | some q =>
      have halive := (mem_kept.1 (List.mem_of_getElem? hq)).2
      obtain ⟨u, hu⟩ := Option.isSome_iff_exists.1 ((isSome_prune_iff q).2 halive)
      simpa [hu] using ih hu

/-- The paths of origins lead through the node that is pruned. -/
theorem path_origin {p n : Place α} {path : Path} (h : p.origin drop cascade path = some n) :
    ∃ rest, n.path = p.path ++ rest ∧ rest.length = path.length := by
  induction path generalizing p with
  | nil =>
    obtain rfl := Option.some.inj h
    exact ⟨[], by simp⟩
  | cons i path ih =>
    obtain ⟨q, hq, hn⟩ := Option.bind_eq_some_iff.1 h
    obtain ⟨j, hpath, _⟩ := mem_children.1 (mem_kept.1 (List.mem_of_getElem? hq)).1
    obtain ⟨rest, hrest, hlen⟩ := ih hn
    exact ⟨j :: rest, by simp [hrest, hpath], by simp [hlen]⟩

/-- Origins are in the order of what comes from them. -/
theorem origin_lt {p n m : Place α} {a b : Path} (hlt : a < b)
    (hn : p.origin drop cascade a = some n) (hm : p.origin drop cascade b = some m) :
    n.path < m.path := by
  induction a generalizing p b with
  | nil =>
    obtain rfl := Option.some.inj hn
    obtain ⟨rest, hrest, hlen⟩ := path_origin hm
    cases b with
    | nil => exact absurd hlt (List.lt_irrefl _)
    | cons j b =>
      cases rest with
      | nil => cases hlen
      | cons k rest =>
        have hlt : p.path ++ [] < p.path ++ k :: rest :=
          List.append_left_lt (List.nil_lt_cons k rest)
        rwa [List.append_nil, ← hrest] at hlt
  | cons i a ih =>
    cases b with
    | nil => exact absurd hlt (List.not_lt_nil _)
    | cons j b =>
      obtain ⟨c, hc, hn⟩ := Option.bind_eq_some_iff.1 hn
      obtain ⟨d, hd, hm⟩ := Option.bind_eq_some_iff.1 hm
      rcases List.cons_lt_cons_iff.1 hlt with hij | ⟨rfl, hab⟩
      · obtain ⟨hi, rfl⟩ := List.getElem?_eq_some_iff.1 hc
        obtain ⟨hj, rfl⟩ := List.getElem?_eq_some_iff.1 hd
        obtain ⟨k, l, hkl, hk, hl⟩ := List.pairwise_iff_getElem.1 p.ordered_kept i j hi hj hij
        obtain ⟨s, hs, _⟩ := path_origin hn
        obtain ⟨s', hs', _⟩ := path_origin hm
        rw [hs, hs', hk, hl, List.append_assoc, List.append_assoc]
        exact List.append_left_lt (List.cons_lt_cons_iff.2 (.inl hkl))
      · obtain rfl : c = d := Option.some.inj (hc.symm.trans hd)
        exact ih hab hn hm

end Place

namespace Tree

variable {drop : Place α → Bool} {cascade : Bool}

/-- The survivors of a tree are the nodes that something in the pruned tree comes from. -/
theorem survivor_iff_origin {t : Tree α} (h : ¬ (Place.root t).Dead drop cascade) (n : Place α) :
    t.Survivor (Place.Dead drop cascade) n ↔
      ∃ path, (Place.root t).origin drop cascade path = some n := by
  constructor
  · intro hn
    refine places_induction (motive := fun n ↦ t.Survivor (Place.Dead drop cascade) n →
      ∃ path, (Place.root t).origin drop cascade path = some n) (fun _ ↦ ⟨[], rfl⟩) ?_ n hn.1 hn
    intro n hmem ih m hm hsurvives
    obtain ⟨hparent, halive⟩ := (survivor_child hmem hm).1 hsurvives
    obtain ⟨path, hpath⟩ := ih hparent
    obtain ⟨i, hi⟩ := List.mem_iff_getElem?.1 (Place.mem_kept.2 ⟨hm, halive⟩)
    exact ⟨path ++ [i], by rw [Place.origin_snoc, hpath, Option.bind_some, hi]⟩
  · rintro ⟨path, hpath⟩
    induction path using List.reverseRecOn generalizing n with
    | nil =>
      obtain rfl := Option.some.inj hpath
      exact survivor_root.2 h
    | append_singleton path i ih =>
      rw [Place.origin_snoc] at hpath
      obtain ⟨m, hm, hn⟩ := Option.bind_eq_some_iff.1 hpath
      obtain ⟨hchild, halive⟩ := Place.mem_kept.1 (List.mem_of_getElem? hn)
      have hsurvives := ih m hm
      exact (survivor_child hsurvives.1 hchild).2 ⟨hsurvives, halive⟩

/-- The node of a tree that a node of the pruned tree comes from. -/
def source (drop : Place α → Bool) (cascade : Bool) (t : Tree α) (m : Place α) : Place α :=
  ((Place.root t).origin drop cascade m.path).getD m

/-- A node of the pruned tree is what is left of its source. -/
theorem prune_source {t r : Tree α} (h : (Place.root t).prune drop cascade = some r) {m : Place α}
    (hm : m ∈ r.places) :
    (Place.root t).origin drop cascade m.path = some (t.source drop cascade m) ∧
      (t.source drop cascade m).prune drop cascade = some m.tree := by
  have hat : ((Place.root t).origin drop cascade m.path).bind (Place.prune drop cascade) =
      some m.tree := (Place.at?_prune h m.path).symm.trans (mem_places.1 hm)
  obtain ⟨n, hn, hleft⟩ := Option.bind_eq_some_iff.1 hat
  have hsource : t.source drop cascade m = n := by rw [source, hn, Option.getD_some]
  rw [hsource]
  exact ⟨hn, hleft⟩

/-- The sources are the survivors. -/
theorem mem_sources {t r : Tree α} (h : (Place.root t).prune drop cascade = some r) (n : Place α) :
    n ∈ r.places.map (t.source drop cascade) ↔ t.Survivor (Place.Dead drop cascade) n := by
  have halive := (Place.isSome_prune_iff _).1 (Option.isSome_iff_exists.2 ⟨r, h⟩)
  rw [List.mem_map, survivor_iff_origin halive]
  constructor
  · rintro ⟨m, hm, rfl⟩
    exact ⟨m.path, (prune_source h hm).1⟩
  · rintro ⟨path, hpath⟩
    have hn := (survivor_iff_origin halive n).2 ⟨path, hpath⟩
    have hleft := (Place.isSome_prune_iff n).2 (hn.2 n hn.1 List.prefix_rfl)
    obtain ⟨u, hu⟩ := Option.isSome_iff_exists.1 hleft
    refine ⟨⟨path, u⟩, mem_places.2 ?_, ?_⟩
    · rw [Place.at?_prune h, hpath, Option.bind_some, hu]
    · rw [source, hpath, Option.getD_some]

/-- The sources of the nodes of the pruned tree are in document order. -/
theorem ordered_sources {t r : Tree α} (h : (Place.root t).prune drop cascade = some r) :
    (r.places.map (t.source drop cascade)).Pairwise fun a b ↦ a.path < b.path := by
  rw [List.pairwise_map]
  refine r.ordered_places.imp_of_mem fun {a b} ha hb hlt ↦ ?_
  exact Place.origin_lt hlt (prune_source h ha).1 (prune_source h hb).1

/-- The sources of children are the children of the source that are kept. -/
theorem map_source_children {t r : Tree α} (h : (Place.root t).prune drop cascade = some r)
    {m : Place α} (hm : m ∈ r.places) :
    m.children.map (t.source drop cascade) = (t.source drop cascade m).kept drop cascade := by
  obtain ⟨horigin, hleft⟩ := prune_source h hm
  apply List.ext_getElem?
  intro i
  have hstep : (Place.root t).origin drop cascade (m.path ++ [i]) =
      ((t.source drop cascade m).kept drop cascade)[i]? := by
    rw [Place.origin_snoc, horigin, Option.bind_some]
  rw [List.getElem?_map, Place.getElem?_children, Place.at?_singleton_prune hleft]
  cases hc : ((t.source drop cascade m).kept drop cascade)[i]? with
  | none => rfl
  | some c =>
    have halive := (Place.mem_kept.1 (List.mem_of_getElem? hc)).2
    obtain ⟨u, hu⟩ := Option.isSome_iff_exists.1 ((Place.isSome_prune_iff c).2 halive)
    have hsource : t.source drop cascade ⟨m.path ++ [i], u⟩ = c := by
      rw [source, hstep, hc, Option.getD_some]
    simp [hu, hsource]

/-- What pruning leaves of a tree is the tree restricted to its survivors. -/
theorem restricts_prune {t r : Tree α} (h : (Place.root t).prune drop cascade = some r) :
    t.Restricts (t.Survivor (Place.Dead drop cascade)) r (t.source drop cascade) where
  order := by
    classical
    have heq : r.places.map (t.source drop cascade) =
        t.places.filter fun n ↦ t.Survivor (Place.Dead drop cascade) n := by
      refine Place.eq_of_ordered (ordered_sources h) (t.ordered_places.sublist
        List.filter_sublist) fun n ↦ ?_
      rw [mem_sources h, List.mem_filter, decide_eq_true_eq]
      exact ⟨fun hn ↦ ⟨hn.1, hn⟩, fun hn ↦ hn.2⟩
    rw [heq]
    exact List.filter_sublist
  stays_iff := mem_sources h
  root := rfl
  siblings m hm := by
    rw [map_source_children h hm]
    exact List.filter_sublist
  content m hm := (Place.prune_eq_some (prune_source h hm).2).2.2.1
  leaf m hm := by
    rw [(Place.prune_eq_some (prune_source h hm).2).2.2.2, Option.map_eq_none_iff]

/-- Pruning leaves nothing of a tree if its root is dead, and otherwise its survivors. -/
theorem prunes_prune (drop : Place α → Bool) (cascade : Bool) (t : Tree α) :
    t.Prunes (Place.Dead drop cascade) ((Place.root t).prune drop cascade) := by
  cases h : (Place.root t).prune drop cascade with
  | none => exact (Place.prune_eq_none_iff _).1 h
  | some r =>
    exact ⟨(Place.isSome_prune_iff _).1 (Option.isSome_iff_exists.2 ⟨r, h⟩), _, restricts_prune h⟩

/-- Rejecting and filtering prune a tree by its dead nodes: what is rejected is dead, and so is
what does not pass the filter. -/
theorem prunes_reject_filter (test : Place α → Bool) (cascade : Bool) (t : Tree α) :
    t.Prunes (Place.Dead test cascade) (t.reject test cascade) ∧
      t.Prunes (Place.Dead (fun n ↦ !test n) cascade) (t.filter test cascade) := by
  refine ⟨prunes_prune test cascade t, ?_⟩
  have hfilter : t.filter test cascade =
      (Place.root t).prune (fun n ↦ !test n) cascade := by
    simp only [Place.prune, Bool.not_not]
    rfl
  rw [hfilter]
  exact prunes_prune _ cascade t

/-- A parent whose children have all gone goes with them; one that never had any stays. -/
example : (parent 0 [parent 1 [leaf 2], parent 3 []]).reject (·.tree.content == 2) true =
    some (parent 0 [parent 3 []]) := rfl

end Tree

end DocSelect
