import DocSelect.Query.Prune
import DocSelect.Proofs.Query.Depth
import DocSelect.Proofs.Query.FindAll
import DocSelect.Proofs.Query.Resolve
import DocSelect.Proofs.Tree.Prune

/-!
# Queries over restricted trees

A tree that is restricted to some of its nodes keeps their contents, their ancestors and the
order of siblings, but not which siblings are next to each other. So a chain without `+` whose
compounds ask for contents alone leads in the tree itself wherever it leads in the restricted
one. What it finds in a tree without its matches would be a match in the tree itself: there is
nothing left to find.
-/

namespace DocSelect

variable {α : Type}

/-- Whether the compounds of a selector have no pseudo-classes, and none must stand right behind
another. -/
def Selector.Loose (s : Selector) : Prop :=
  ∀ c ∈ s.chains, ∀ d ∈ c.toList, d.pseudos = [] ∧ d.combinator ≠ some .nextSibling

/-- Whether a step asks for nothing but a node's contents, and need not stand right behind
another. -/
structure Step.Loose (step : Step α) : Prop where
  combinator : step.combinator ≠ some .nextSibling
  test : ∀ {setting setting' : Setting} {p p' : Place α} {position position' : Option Position},
    setting.inner = false → setting'.inner = false → p.tree.content = p'.tree.content →
      step.test setting p position = step.test setting' p' position'

namespace Tree.Restricts

variable {t r : Tree α} {stays : Place α → Prop} {source : Place α → Place α}
  (h : t.Restricts stays r source)

include h

/-- Sources are nodes of the tree. -/
theorem source_mem {m : Place α} (hm : m ∈ r.places) : source m ∈ t.places :=
  h.order.subset (List.mem_map_of_mem hm)

/-- The source of a child is a child of the source. -/
theorem source_child {n m : Place α} (hn : n ∈ r.places) (hm : m ∈ n.children) :
    source m ∈ (source n).children :=
  (h.siblings n hn).subset (List.mem_map_of_mem hm)

/-- Nodes stand as deep as their sources. -/
theorem length_source : ∀ m ∈ r.places, (source m).path.length = m.path.length := by
  apply places_induction
  · rw [h.root]
    rfl
  · intro n hn ih m hm
    obtain ⟨i, hi, _⟩ := Place.mem_children.1 hm
    obtain ⟨j, hj, _⟩ := Place.mem_children.1 (h.source_child hn hm)
    simp [hi, hj, ih]

/-- A restricted tree fits every limit that the tree fits. -/
theorem fits {limit : Nat} (ht : t.Fits limit) : r.Fits limit := by
  intro m hm hne
  rw [← h.length_source m hm]
  refine ht _ (h.source_mem hm) fun hnil ↦ hne ?_
  have hsub := h.siblings m hm
  rw [hnil, List.sublist_nil, List.map_eq_nil_iff] at hsub
  exact hsub

/-- Children have their sources below the source. -/
theorem leads_child {n m : Place α} (hn : n ∈ r.places) (hm : m ∈ r.places)
    (hlead : Combinator.child.Leads n.path m.path) :
    Combinator.child.Leads (source n).path (source m).path := by
  obtain ⟨i, hi⟩ := hlead
  obtain ⟨k, hk, hpath, hchild⟩ := exists_parent hm hi
  obtain rfl := eq_of_path hk hn hpath
  obtain ⟨j, hj, _⟩ := Place.mem_children.1 (h.source_child hk (List.mem_of_getElem? hchild))
  exact ⟨j, hj⟩

/-- Descendants have their sources below the source. -/
theorem leads_descendant {n : Place α} (hn : n ∈ r.places) :
    ∀ m ∈ r.places, Combinator.descendant.Leads n.path m.path →
      Combinator.descendant.Leads (source n).path (source m).path := by
  apply places_induction
  · intro hlead
    exact absurd hlead (Combinator.not_leads_nil _ _)
  · intro k hk ih m hm hlead
    obtain ⟨i, hi, _⟩ := Place.mem_children.1 hm
    obtain ⟨j, hj, _⟩ := Place.mem_children.1 (h.source_child hk hm)
    rw [hi, Combinator.leads_descendant_snoc] at hlead
    rw [hj, Combinator.leads_descendant_snoc]
    rcases hlead with heq | hlead
    · exact .inl (congrArg (fun p ↦ (source p).path) (eq_of_path hn hk heq))
    · exact .inr (ih hlead)

/-- Siblings have their sources beside each other in the same order. -/
theorem leads_laterSibling {n m : Place α} (hn : n ∈ r.places) (hm : m ∈ r.places)
    (hlead : Combinator.laterSibling.Leads n.path m.path) :
    Combinator.laterSibling.Leads (source n).path (source m).path := by
  obtain ⟨path, i, j, hij, hnpath, hmpath⟩ := hlead
  obtain ⟨k, hk, hpath, hchild⟩ := exists_parent hn hnpath
  obtain ⟨l, hl, hpath', hchild'⟩ := exists_parent hm hmpath
  obtain rfl := eq_of_path hk hl (hpath.trans hpath'.symm)
  have hordered := (source k).ordered_children.sublist (h.siblings k hk)
  rw [List.pairwise_map, List.pairwise_iff_getElem] at hordered
  obtain ⟨hi, rfl⟩ := List.getElem?_eq_some_iff.1 hchild
  obtain ⟨hj, rfl⟩ := List.getElem?_eq_some_iff.1 hchild'
  obtain ⟨i', j', hlt, hi', hj'⟩ := hordered i j hi hj hij
  exact ⟨(source k).path, i', j', hlt, hi', hj'⟩

/-- Where a combinator other than `+` leads, it leads from source to source. -/
theorem leads {op : Combinator} (hop : op ≠ .nextSibling) {n m : Place α} (hn : n ∈ r.places)
    (hm : m ∈ r.places) (hlead : op.Leads n.path m.path) :
    op.Leads (source n).path (source m).path := by
  cases op with
  | descendant => exact h.leads_descendant hn m hm hlead
  | child => exact h.leads_child hn hm hlead
  | nextSibling => exact absurd rfl hop
  | laterSibling => exact h.leads_laterSibling hn hm hlead

variable [Element α] {q : Query α}

/-- A step that a node passes is one that its source passes. -/
theorem passes {step : Step α} (hstep : step.Loose) {path : Path}
    (hpass : (q.scene r).Passes step path) :
    ∃ m ∈ r.places, m.path = path ∧ (q.scene t).Passes step (source m).path := by
  obtain ⟨m, hnode, v, htest, hv⟩ := hpass
  obtain ⟨hat, hpath⟩ := (Query.node?_scene q).1 hnode
  have hm : m ∈ r.places := mem_places.2 (hpath ▸ hat)
  have hsource : (q.scene t).node? (source m).path = some (source m) :=
    (Query.node?_scene q).2 ⟨mem_places.1 (h.source_mem hm), rfl⟩
  refine ⟨m, hm, hpath.symm, source m, hsource, v, ?_, hv⟩
  rw [← htest]
  exact hstep.test rfl rfl (h.content m hm).symm

/-- Links that join two nodes join their sources. -/
theorem joins {links : List (Step α)} (hlinks : ∀ step ∈ links, step.Loose) {n m : Place α}
    (hn : n ∈ r.places) (hm : m ∈ r.places) (hjoin : (q.scene r).Joins links n.path m.path) :
    (q.scene t).Joins links (source n).path (source m).path := by
  induction links generalizing n with
  | nil => exact congrArg (fun p ↦ (source p).path) (eq_of_path hn hm hjoin)
  | cons step links ih =>
    obtain ⟨hstep, hlinks⟩ := List.forall_mem_cons.1 hlinks
    obtain ⟨op, path, hop, hlead, hpass, hrest⟩ := hjoin
    obtain ⟨k, hk, rfl, hsource⟩ := h.passes hstep hpass
    have hne : op ≠ .nextSibling := by
      rintro rfl
      exact hstep.combinator hop
    exact ⟨op, (source k).path, hop, h.leads hne hn hk hlead, hsource, ih hlinks hk hrest⟩

/-- A chain that matches a node matches its source. -/
theorem matches_source {c : Chain (Step α)} (hc : ∀ step ∈ c.toList, step.Loose) {m : Place α}
    (hm : m ∈ r.places) (hmatch : (q.scene r).Matches c m.path) :
    (q.scene t).Matches c (source m).path := by
  obtain ⟨hhead, hlinks⟩ := List.forall_mem_cons.1 hc
  obtain ⟨path, hpass, hjoin⟩ := hmatch
  obtain ⟨n, hn, rfl, hsource⟩ := h.passes hhead hpass
  exact ⟨(source n).path, hsource, h.joins hlinks hn hm hjoin⟩

end Tree.Restricts

section Loose

variable {o : QueryOptions α}

/-- The matchers of a loose selector have no pseudo-classes. -/
theorem Selector.Loose.resolve {s : Selector} {ms : List (Chain (Matcher α))} (hs : s.Loose)
    (h : s.resolve o = .ok ms) :
    ∀ c ∈ ms, ∀ m ∈ c.toList, m.tests = [] ∧ m.combinator ≠ some .nextSibling := by
  intro c hc m hm
  obtain ⟨c', hc', d, hd, hresolve⟩ := exists_compound_of_resolve h hc hm
  obtain ⟨hpseudos, hcombinator⟩ := hs c' hc' d hd
  exact ⟨Compound.tests_of_resolve hpseudos hresolve,
    Compound.combinator_resolve hresolve ▸ hcombinator⟩

/-- Matchers without pseudo-classes are safe. -/
theorem Matcher.safeChains_of_tests {cs : List (Chain (Matcher α))}
    (h : ∀ c ∈ cs, ∀ m ∈ c.toList, m.tests = []) : Matcher.SafeChains cs := by
  have hsafe (m : Matcher α) (hm : m.tests = []) : m.Safe := by
    obtain ⟨type, id, classes, attributes, tests, combinator⟩ := m
    obtain rfl : tests = [] := hm
    trivial
  have hsteps (ms : List (Matcher α)) (hms : ∀ m ∈ ms, m.tests = []) : Matcher.SafeSteps ms := by
    induction ms with
    | nil => trivial
    | cons m ms ih =>
      obtain ⟨hm, hms⟩ := List.forall_mem_cons.1 hms
      exact ⟨hsafe m hm, ih hms⟩
  induction cs with
  | nil => trivial
  | cons c cs ih =>
    obtain ⟨head, links⟩ := c
    obtain ⟨hc, hcs⟩ := List.forall_mem_cons.1 h
    obtain ⟨hhead, hlinks⟩ := List.forall_mem_cons.1 hc
    exact ⟨⟨hsafe head hhead, hsteps links hlinks⟩, ih hcs⟩

variable [Element α]

/-- A matcher without pseudo-classes asks for contents alone. -/
theorem Matcher.loose_step {m : Matcher α} (hm : m.tests = [])
    (hcombinator : m.combinator ≠ some .nextSibling) : m.step.Loose where
  combinator := by rwa [combinator_step]
  test hinner hinner' hcontent := by
    rw [test_step (by simp [hinner]), test_step (by simp [hinner']), hm, hcontent]
    rfl

/-- The chains of matchers without pseudo-classes ask for contents alone. -/
theorem Matcher.loose_chains {cs : List (Chain (Matcher α))}
    (h : ∀ c ∈ cs, ∀ m ∈ c.toList, m.tests = [] ∧ m.combinator ≠ some .nextSibling) :
    ∀ c ∈ Matcher.chains cs, ∀ step ∈ c.toList, step.Loose := by
  rw [chains_eq_map]
  intro c hc step hstep
  obtain ⟨⟨head, links⟩, hchain, rfl⟩ := List.mem_map.1 hc
  have hstep : step ∈ (head :: links).map Matcher.step := by
    rwa [List.map_cons, ← steps_eq_map]
  obtain ⟨m, hm, rfl⟩ := List.mem_map.1 hstep
  obtain ⟨htests, hcombinator⟩ := h _ hchain m hm
  exact loose_step htests hcombinator

end Loose

namespace Query

/-- A node that was found is among those that were found. -/
theorem isAmong_of_mem {found : List (Place α)} {n : Place α} (h : n ∈ found) :
    isAmong found n = true :=
  List.any_eq_true.2 ⟨n, h, beq_self_eq_true n.path⟩

variable [Element α] {o : QueryOptions α} {s : Selector} {q : Query α} {root t : Tree α}

/-- When the nodes that a loose selector finds are removed, it finds nothing in what is left. -/
theorem findAll_of_reject {cascade : Bool} (hs : s.Joined) (hloose : s.Loose)
    (hq : ofSelector o s = .ok q) (h : q.reject cascade root = .ok (some t)) :
    q.findAll t = .ok [] := by
  obtain ⟨alternatives, hresolve, hq⟩ := Outcome.bind_eq_ok.1 hq
  obtain rfl := Except.ok.inj hq
  obtain ⟨found, hfound, h⟩ := Outcome.bind_eq_ok.1 h
  have hall := hloose.resolve hresolve
  have hjoined := Selector.joined_resolve hresolve hs
  have hrestricts := Tree.restricts_prune (Except.ok.inj h)
  have hfits := hrestricts.fits (fits_of_findAll hfound)
  rcases findAll_of_fits hfits with ⟨left, hleft⟩ | ⟨hsafe, _⟩
  · rw [hleft]
    refine congrArg Except.ok (List.eq_nil_iff_forall_not_mem.2 fun m hm ↦ ?_)
    obtain ⟨path, _, hnode, c, hc, hmatch⟩ := ((finds_findAll hjoined hleft).mem m).1 hm
    obtain ⟨hat, rfl⟩ := (node?_scene _).1 hnode
    have hplace : m ∈ t.places := Tree.mem_places.2 hat
    -- what is found in the pruned tree has its source among what was removed
    have hsource := hrestricts.matches_source (Matcher.loose_chains hall c hc) hplace hmatch
    have hmem := ((finds_findAll hjoined hfound).mem _).2 ⟨_, trivial,
      (node?_scene _).2 ⟨Tree.mem_places.1 (hrestricts.source_mem hplace), rfl⟩, c, hc, hsource⟩
    have hstays := (hrestricts.stays_iff _).1 (List.mem_map_of_mem hplace)
    exact hstays.2 _ hstays.1 List.prefix_rfl (.dropped (isAmong_of_mem hmem))
  · exact absurd (Matcher.safeChains_of_tests fun c hc m hm ↦ (hall c hc m hm).1) hsafe

/-- Without the items behind another item, `item ~ item` finds nothing in a list. -/
theorem findAll_of_reject_items :
    let item : Compound := { Compound.blank with type := some (.named "item") }
    let s : Selector := .chain ⟨item, [{ item with combinator := some .laterSibling }]⟩
    let q : Query Content := ⟨s, [⟨⟨some "item", none, [], [], [], none⟩,
      [⟨some "item", none, [], [], [], some .laterSibling⟩]⟩], 512⟩
    let a := Node.ofType "item"
    let b := Node.ofType "text"
    let root := Node.ofChildren "list" [a, b, Node.ofChildren "item" [b], a]
    let t := Node.ofChildren "list" [a, b]
    s.Joined ∧ s.Loose ∧ ofSelector .default s = .ok q ∧
      q.reject true root = .ok (some t) ∧ q.findAll t = .ok [] := by
  intro item s q a b root t
  have hs : s.Joined := by
    intro c hc
    obtain rfl := List.mem_singleton.1 hc
    exact ⟨rfl, by decide⟩
  have hloose : s.Loose := by
    intro c hc
    obtain rfl := List.mem_singleton.1 hc
    intro d hd
    rcases List.mem_pair.1 hd with rfl | rfl
    · exact ⟨rfl, by decide⟩
    · exact ⟨rfl, by decide⟩
  have hq : ofSelector .default s = .ok q := rfl
  have hreject : q.reject true root = .ok (some t) := rfl
  exact ⟨hs, hloose, hq, hreject, findAll_of_reject hs hloose hq hreject⟩

end Query

end DocSelect
