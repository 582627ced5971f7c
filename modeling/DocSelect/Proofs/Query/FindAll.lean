import DocSelect.Query.Basic
import DocSelect.Tree.Node
import DocSelect.Proofs.Query.Found
import DocSelect.Proofs.Tree.Order

/-!
# The nodes of a query

A query finds the nodes that match one of its chains. Selectors as they are written have a
combinator at every link and none at a head, and resolving keeps that shape. For such a
selector the nodes found are those of the document order that match, each of them once.
-/

namespace DocSelect

variable {α : Type}

/-- Whether the chains of a selector have the shape of written ones: a combinator at every
link and none at a head. -/
def Selector.Joined (s : Selector) : Prop := ∀ c ∈ s.chains, c.Joined Compound.combinator

section Resolve

variable {o : QueryOptions α}

/-- A matcher carries the combinator of its compound. -/
theorem Compound.combinator_resolve {c : Compound} {m : Matcher α} (h : c.resolve o = .ok m) :
    m.combinator = c.combinator := by
  obtain ⟨type, id, classes, attributes, pseudos, combinator⟩ := c
  simp only [Compound.resolve] at h
  obtain ⟨as, _, h⟩ := Outcome.bind_eq_ok.1 h
  obtain ⟨ts, _, h⟩ := Outcome.bind_eq_ok.1 h
  obtain rfl := Except.ok.inj h
  rfl

/-- Matchers carry the combinators of their compounds. -/
theorem Selector.combinators_resolveLinks {links : List Compound} {ms : List (Matcher α)}
    (h : Selector.resolveLinks o links = .ok ms) :
    ms.map Matcher.combinator = links.map Compound.combinator := by
  induction links generalizing ms with
  | nil =>
    rw [Selector.resolveLinks] at h
    obtain rfl := Except.ok.inj h
    rfl
  | cons c cs ih =>
    rw [Selector.resolveLinks] at h
    obtain ⟨m, hm, h⟩ := Outcome.bind_eq_ok.1 h
    obtain ⟨ms', hms, h⟩ := Outcome.bind_eq_ok.1 h
    obtain rfl := Except.ok.inj h
    rw [List.map_cons, List.map_cons, ih hms, Compound.combinator_resolve hm]

/-- Resolving a chain keeps its shape. -/
theorem Selector.joined_resolveChain {c : Chain Compound} {m : Chain (Matcher α)}
    (h : Selector.resolveChain o c = .ok m) (hc : c.Joined Compound.combinator) :
    m.Joined Matcher.combinator := by
  obtain ⟨head, links⟩ := c
  rw [Selector.resolveChain] at h
  obtain ⟨h', hhead, h⟩ := Outcome.bind_eq_ok.1 h
  obtain ⟨ls, hlinks, h⟩ := Outcome.bind_eq_ok.1 h
  obtain rfl := Except.ok.inj h
  have hall := Selector.combinators_resolveLinks hlinks
  refine ⟨(Compound.combinator_resolve hhead).trans hc.1, fun m hm ↦ ?_⟩
  have hmem : m.combinator ∈ links.map Compound.combinator := by
    rw [← hall]
    exact List.mem_map_of_mem hm
  obtain ⟨link, hl, he⟩ := List.mem_map.1 hmem
  rw [← he]
  exact hc.2 link hl

/-- Resolving chains keeps their shape. -/
theorem Selector.joined_resolveChains {cs : List (Chain Compound)} {ms : List (Chain (Matcher α))}
    (h : Selector.resolveChains o cs = .ok ms) (hcs : ∀ c ∈ cs, c.Joined Compound.combinator) :
    ∀ m ∈ ms, m.Joined Matcher.combinator := by
  induction cs generalizing ms with
  | nil =>
    rw [Selector.resolveChains] at h
    obtain rfl := Except.ok.inj h
    simp
  | cons c cs ih =>
    rw [Selector.resolveChains] at h
    obtain ⟨m, hm, h⟩ := Outcome.bind_eq_ok.1 h
    obtain ⟨ms', hms, h⟩ := Outcome.bind_eq_ok.1 h
    obtain rfl := Except.ok.inj h
    obtain ⟨hhead, htail⟩ := List.forall_mem_cons.1 hcs
    exact List.forall_mem_cons.2 ⟨joined_resolveChain hm hhead, ih hms htail⟩

/-- Resolving a selector keeps the shape of its chains. -/
theorem Selector.joined_resolve {s : Selector} {ms : List (Chain (Matcher α))}
    (h : s.resolve o = .ok ms) (hs : s.Joined) : ∀ m ∈ ms, m.Joined Matcher.combinator := by
  cases s with
  | chain c =>
    rw [Selector.resolve] at h
    obtain ⟨m, hm, h⟩ := Outcome.bind_eq_ok.1 h
    obtain rfl := Except.ok.inj h
    have hc := joined_resolveChain hm (hs c (List.mem_singleton_self c))
    simpa using hc
  | list cs =>
    rw [Selector.resolve] at h
    exact joined_resolveChains h hs

end Resolve

section Steps

variable [Element α]

/-- A step carries the combinator of its matcher. -/
theorem Matcher.combinator_step (m : Matcher α) : m.step.combinator = m.combinator := by
  obtain ⟨type, id, classes, attributes, tests, combinator⟩ := m
  rw [Matcher.step]

/-- The steps of some matchers, one for each. -/
theorem Matcher.steps_eq_map (ms : List (Matcher α)) : Matcher.steps ms = ms.map Matcher.step := by
  induction ms with
  | nil => rfl
  | cons m ms ih => rw [Matcher.steps, ih, List.map_cons]

/-- The chains of steps of some chains of matchers, one for each. -/
theorem Matcher.chains_eq_map (cs : List (Chain (Matcher α))) :
    Matcher.chains cs = cs.map Matcher.chain := by
  induction cs with
  | nil => rfl
  | cons c cs ih => rw [Matcher.chains, ih, List.map_cons]

/-- The steps of chains have the shape of their matchers. -/
theorem Matcher.joined_chains {cs : List (Chain (Matcher α))}
    (h : ∀ c ∈ cs, c.Joined Matcher.combinator) :
    ∀ c ∈ Matcher.chains cs, c.Joined Step.combinator := by
  rw [chains_eq_map]
  intro c hc
  obtain ⟨⟨head, links⟩, hm, rfl⟩ := List.mem_map.1 hc
  obtain ⟨hhead, hlinks⟩ := h _ hm
  refine ⟨(combinator_step head).trans hhead, fun step hs ↦ ?_⟩
  have hs : step ∈ links.map Matcher.step := by rwa [← steps_eq_map]
  obtain ⟨m, hm, rfl⟩ := List.mem_map.1 hs
  rw [combinator_step]
  exact hlinks m hm

end Steps

namespace Query

variable [Element α]

/-- The nodes that a query's chains are laid over, all those of a tree. -/
def scene (q : Query α) (root : Tree α) : Scene α :=
  ⟨Place.root root, true, (Place.root root).scope, 0, q.maxDepth⟩

/-- Whether a node of a tree matches one of a query's chains. -/
def Matches (q : Query α) (root : Tree α) (p : Place α) : Prop :=
  ∃ c ∈ Matcher.chains q.alternatives, (q.scene root).Matches c p.path

/-- All nodes of a tree take part in a query from its root. -/
theorem node?_scene (q : Query α) {root : Tree α} {path : Path} {p : Place α} :
    (q.scene root).node? path = some p ↔ root.at? path = some p.tree ∧ path = p.path := by
  obtain ⟨full, t⟩ := p
  simp only [Scene.node?, scene, Place.root, Bool.true_eq_false, and_false, if_false,
    List.nil_append, Option.map_eq_some_iff, Place.mk.injEq]
  constructor
  · rintro ⟨u, hu, rfl, rfl⟩
    exact ⟨hu, rfl⟩
  · rintro ⟨hu, rfl⟩
    exact ⟨t, hu, rfl, rfl⟩

/-- The search of a query for all nodes covers the whole tree. -/
theorem covers_search {q : Query α} (hq : ∀ c ∈ q.alternatives, c.Joined Matcher.combinator)
    (root : Tree α) : (q.search false root).Covers (q.scene root) where
  all := rfl
  scope := rfl
  maxDepth := rfl
  joined := Matcher.joined_chains hq

/-- A query finds the matching nodes of a tree, in document order. -/
theorem finds_findAll {q : Query α} (hq : ∀ c ∈ q.alternatives, c.Joined Matcher.combinator)
    {root : Tree α} {found : List (Place α)} (h : q.findAll root = .ok found) :
    (q.scene root).Finds (Matcher.chains q.alternatives) (fun _ ↦ True) found := by
  obtain ⟨hits, hr, h⟩ := Outcome.bind_eq_ok.1 h
  obtain rfl := Except.ok.inj h
  exact Search.finds_run (covers_search hq root) rfl hr

open scoped Classical in
/-- The nodes that a query finds are those of the document order that match one of its chains. -/
theorem findAll_eq_filter {o : QueryOptions α} {s : Selector} {q : Query α} {root : Tree α}
    {found : List (Place α)} (hs : s.Joined) (hq : Query.ofSelector o s = .ok q)
    (h : q.findAll root = .ok found) :
    found = root.places.filter fun p ↦ q.Matches root p := by
  obtain ⟨alternatives, hr, hq⟩ := Outcome.bind_eq_ok.1 hq
  obtain rfl := Except.ok.inj hq
  have hfinds := finds_findAll (Selector.joined_resolve hr hs) h
  apply Place.eq_of_ordered hfinds.ordered ((Tree.ordered_places root).filter _)
  intro p
  rw [hfinds.mem, List.mem_filter, decide_eq_true_iff, Tree.mem_places]
  constructor
  · rintro ⟨path, _, hnode, hm⟩
    obtain ⟨hat, rfl⟩ := (node?_scene _).1 hnode
    exact ⟨hat, hm⟩
  · rintro ⟨hat, hm⟩
    exact ⟨p.path, trivial, (node?_scene _).2 ⟨hat, rfl⟩, hm⟩

open scoped Classical in
/-- The two texts of the item behind another item, found by `item + item > text`. -/
theorem findAll_item_item_text :
    let item : Compound := { Compound.blank with type := some (.named "item") }
    let text : Compound := { Compound.blank with type := some (.named "text") }
    let s : Selector := .chain
      ⟨item, [{ item with combinator := some .nextSibling },
        { text with combinator := some .child }]⟩
    let q : Query Content := ⟨s, [⟨⟨some "item", none, [], [], [], none⟩,
      [⟨some "item", none, [], [], [], some .nextSibling⟩,
        ⟨some "text", none, [], [], [], some .child⟩]⟩], 512⟩
    let a := Node.ofText "text" "a"
    let root := Node.ofChildren "list" [Node.ofChildren "item" [a], Node.ofChildren "item" [a, a]]
    s.Joined ∧ Query.ofSelector .default s = .ok q ∧
      q.findAll root = .ok [⟨[1, 0], a⟩, ⟨[1, 1], a⟩] ∧
      [⟨[1, 0], a⟩, ⟨[1, 1], a⟩] = root.places.filter fun p ↦ q.Matches root p := by
  intro item text s q a root
  have hs : s.Joined := by
    intro c hc
    obtain rfl := List.mem_singleton.1 hc
    exact ⟨rfl, by decide⟩
  have hq : Query.ofSelector .default s = .ok q := rfl
  have h : q.findAll root = .ok [⟨[1, 0], a⟩, ⟨[1, 1], a⟩] := rfl
  exact ⟨hs, hq, h, findAll_eq_filter hs hq h⟩

end Query

end DocSelect
