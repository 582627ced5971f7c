import DocSelect.Tree.Node
import DocSelect.Proofs.Query.FindAll
import DocSelect.Proofs.Query.Room

/-!
# Asking for one node

A query without chains can be asked for one node alone. The full search asks the same tests there,
but deeper down and with the root's `:scope`; so the two agree where no test asks for `:scope`
itself. At the root the siblings are unknown to the question, and it may be left without answer
for that reason only.
-/

namespace DocSelect

variable {α : Type}

/-- Whether all heads of some chains are answered at a node, and whether one of them holds. -/
def Decided (chains : List (Chain (Step α))) (setting : Setting) (place : Place α)
    (position : Option Position) (found : Prop) : Prop :=
  (∀ c ∈ chains, ∃ v, c.head.test setting place position = .ok v) ∧
    (found ↔ ∃ c ∈ chains, c.head.Accepts setting place position)

namespace Search

variable {s : Search α}

variable [Element α] {g : Scene α}

/-- Where no chain has a link only heads wait, and a full search decides all heads at every
node. -/
def headsInvariant (hs : s.firstOnly = false) (hlinks : ∀ c ∈ s.chains, c.links = []) :
    s.Invariant g where
  waits _ ws := ∀ w ∈ ws, w ∈ Waiting.heads s.chains
  below _ ws := ∀ w ∈ ws, w ∈ Waiting.heads s.chains
  beside _ ws := ∀ w ∈ ws, w ∈ Waiting.heads s.chains
  tells path place found := Decided s.chains (s.setting (g.depth + path.length)) place
    (g.top.tree.positionAt? path) (found = true)
  waits_first hb := hb
  waits_next hb hn := List.forall_mem_append.2 ⟨hb, hn⟩
  trial {path place ws t} hnode hw h := by
    have hheads : ∀ w ∈ ws ++ Waiting.heads s.chains, w ∈ Waiting.heads s.chains :=
      List.forall_mem_append.2 ⟨hw, fun _ hm ↦ hm⟩
    have hnext (w v : Waiting α) (hm : w ∈ Waiting.heads s.chains) (hv : w.next? = some v) :
        v ∈ Waiting.heads s.chains := by
      obtain ⟨i, c, hc, rfl⟩ := Waiting.mem_heads.1 hm
      obtain ⟨hrest, _⟩ := Waiting.next?_eq_some.1 hv
      rw [hlinks c (List.mem_of_getElem? hc)] at hrest
      cases hrest
    have hpending := Pending.All.tryAll hnext hheads Pending.all_none h
    refine ⟨⟨fun c hc ↦ ?_, ?_⟩, hpending.below, hpending.beside⟩
    · obtain ⟨w, hm, hstep, _⟩ := Waiting.exists_head hc
      rw [← hstep]
      exact (exists_tryAll_iff hs).1 ⟨t, h⟩ w (List.mem_append_right ws hm)
    · rw [found_tryAll hs h]
      constructor
      · rintro (hno | ⟨w, hm, ha, _⟩)
        · cases hno
        · obtain ⟨i, c, hc, rfl⟩ := Waiting.mem_heads.1 (hheads w hm)
          exact ⟨c, List.mem_of_getElem? hc, ha⟩
      · rintro ⟨c, hc, ha⟩
        obtain ⟨w, hm, hstep, hrest⟩ := Waiting.exists_head hc
        refine .inr ⟨w, List.mem_append_right ws hm, ?_, hrest.trans (hlinks c hc)⟩
        rwa [hstep]

end Search

namespace Query

/-- Asking the heads of chains without links in another setting gives what was decided, or no
answer for want of siblings. -/
theorem anyAt_of_answered {chains : List (Chain (Step α))} {s s' : Setting} {place : Place α}
    {position : Option Position} (hlinks : ∀ c ∈ chains, c.links = [])
    (hanswered : ∀ c ∈ chains, ∃ v, c.head.test s place position = .ok v)
    (hkeeps : ∀ c ∈ chains, Outcome.Keeps s'.detached (c.head.test s place position)
      (c.head.test s' place position)) :
    (∃ b, anyAt s' place position chains = .ok b ∧
        (b = true ↔ ∃ c ∈ chains, c.head.Accepts s place position)) ∨
      s'.detached = true ∧ ∃ name, anyAt s' place position chains = .error (.noParent name) := by
  induction chains with
  | nil => exact .inl ⟨false, rfl, by simp⟩
  | cons c cs ih =>
    obtain ⟨hc, hcs⟩ := List.forall_mem_cons.1 hlinks
    obtain ⟨⟨v, hv⟩, hvs⟩ := List.forall_mem_cons.1 hanswered
    obtain ⟨hk, hks⟩ := List.forall_mem_cons.1 hkeeps
    have haccepts : c.head.Accepts s place position ↔ v.holds = true := by
      simp [Step.Accepts, hv]
    rw [anyAt, if_pos (by rw [hc]; rfl)]
    rcases hk v hv with hv' | ⟨hd, name, he⟩
    · rw [hv', Outcome.ok_bind]
      by_cases hholds : v.holds = true
      · rw [if_pos hholds]
        exact .inl ⟨true, rfl, by simp [haccepts, hholds]⟩
      · rw [if_neg hholds]
        simpa [haccepts, hholds] using ih hcs hvs hks
    · rw [he]
      exact .inr ⟨hd, name, rfl⟩

variable [Element α]

/-- A child of a node has the position that its index has among the children. -/
theorem positionIn_of_mem_children {p n : Place α} (hn : n ∈ p.children) :
    ∃ i position, (p.tree.children?.getD [])[i]? = some n.tree ∧ n.path = p.path ++ [i] ∧
      Position.among? ((p.tree.children?.getD []).map Tree.type) i = some position ∧
      positionIn n p = .ok position := by
  obtain ⟨path, tree⟩ := p
  obtain ⟨i, hi, rfl⟩ := List.mem_mapIdx.1 hn
  dsimp only at hi ⊢
  have hindex : (Place.mk path tree).children.findIdx?
      (fun child ↦ child.path == path ++ [i]) = some i := by
    rw [List.findIdx?_eq_some_iff_getElem]
    refine ⟨by simpa [Place.children] using hi, by simp [Place.children], ?_⟩
    intro j hj
    simp only [Place.children, List.getElem_mapIdx, beq_iff_eq]
    simp
    omega
  obtain ⟨position, hp⟩ : ∃ position,
      Position.among? ((tree.children?.getD []).map Tree.type) i = some position := by
    simp [Position.among?, hi]
  refine ⟨i, position, List.getElem?_eq_getElem hi, rfl, hp, ?_⟩
  unfold positionIn
  dsimp only
  rw [hindex]
  dsimp only
  rw [hp]
  rfl

/-- A child of a node of a tree is a node of the tree, and its position among the children is the
one that it has in the tree. -/
theorem positionIn_child {root : Tree α} {p n : Place α} (hp : p ∈ root.places)
    (hn : n ∈ p.children) :
    n ∈ root.places ∧
      ∃ position, positionIn n p = .ok position ∧ root.positionAt? n.path = some position := by
  obtain ⟨path, tree⟩ := p
  have hat : root.at? path = some tree := Tree.mem_places.1 hp
  obtain ⟨i, position, hchild, hpath, hamong, hin⟩ := positionIn_of_mem_children hn
  cases tree with
  | leaf a => cases hchild
  | parent a cs =>
    refine ⟨Tree.mem_places.2 ?_, position, hin, ?_⟩
    · rw [hpath, Tree.at?_snoc hat]
      exact hchild
    · rw [hpath, Tree.positionAt?_snoc hat]
      exact hamong

/-- A query without chains has heads alone. -/
theorem links_chains {cs : List (Chain (Matcher α))} (h : ∀ c ∈ cs, c.links = []) :
    ∀ c ∈ Matcher.chains cs, c.links = [] := by
  rw [Matcher.chains_eq_map]
  intro c hc
  obtain ⟨⟨head, links⟩, hm, rfl⟩ := List.mem_map.1 hc
  have hlinks : links = [] := h _ hm
  rw [Matcher.chain, hlinks, Matcher.steps]

/-- A search for all nodes by a query without chains decides all its heads at every node. -/
theorem decided_of_findAll {q : Query α} {root : Tree α} {found : List (Place α)}
    (hq : ∀ c ∈ q.alternatives, c.links = []) (h : q.findAll root = .ok found) {p : Place α}
    (hp : p ∈ root.places) :
    Decided (Matcher.chains q.alternatives) ((q.search false root).setting p.path.length) p
      (root.positionAt? p.path) (p ∈ found) := by
  obtain ⟨hits, hr, h⟩ := Outcome.bind_eq_ok.1 h
  obtain rfl := Except.ok.inj h
  have hnode : (q.scene root).node? p.path = some p :=
    (node?_scene q).2 ⟨Tree.mem_places.1 hp, rfl⟩
  have htold := (Search.headsInvariant (s := q.search false root) (g := q.scene root) rfl
    (links_chains hq)).told_run rfl (fun w hw ↦ absurd hw List.not_mem_nil) hr
  have hdepth : (q.scene root).depth + p.path.length = p.path.length := Nat.zero_add _
  by_cases hm : p ∈ hits.found
  · obtain ⟨path, _, hpath, htells⟩ := htold.found p hm
    obtain ⟨_, rfl⟩ := (node?_scene q).1 hpath
    have htells : Decided _ _ _ _ _ := htells
    rw [hdepth] at htells
    exact ⟨htells.1, (iff_of_true hm rfl).trans htells.2⟩
  · have htells : Decided _ _ _ _ _ := (htold.missed rfl p.path p trivial hnode).resolve_left hm
    rw [hdepth] at htells
    exact ⟨htells.1, (iff_of_false hm Bool.false_ne_true).trans htells.2⟩

/-- A node asked for alone, with or without its siblings, is answered as a full search decided. -/
theorem anyAt_of_findAll {q : Query α} {root : Tree α} {found : List (Place α)} {setting : Setting}
    (hq : ∀ c ∈ q.alternatives, c.links = []) (h : q.findAll root = .ok found) {p : Place α}
    (hp : p ∈ root.places) (heases : ((q.search false root).setting p.path.length).Eases setting)
    (hscope : (∀ c ∈ q.alternatives, Test.scope ∉ c.head.tests) ∨
      (Place.root root).scope = setting.scope) :
    (∃ b, anyAt setting p (root.positionAt? p.path) (Matcher.chains q.alternatives) = .ok b ∧
        (b = true ↔ p ∈ found)) ∨
      setting.detached = true ∧ ∃ name, anyAt setting p (root.positionAt? p.path)
        (Matcher.chains q.alternatives) = .error (.noParent name) := by
  obtain ⟨hanswered, hfound⟩ := decided_of_findAll hq h hp
  rw [hfound]
  apply anyAt_of_answered (links_chains hq) hanswered
  rw [Matcher.chains_eq_map]
  intro c hc
  obtain ⟨⟨head, links⟩, hm, rfl⟩ := List.mem_map.1 hc
  apply Matcher.keeps_step head heases
  intro hasks
  exact hscope.resolve_left fun hnone ↦ hnone _ hm hasks

/-- A query without chains that finds the nodes of a tree says the same of each node asked for
alone: of a child of a node, if no alternative asks for `:scope` itself, and of the root, which
may be left without answer for want of siblings. -/
theorem matchesAt_iff_mem_findAll {q : Query α} {root : Tree α} {found : List (Place α)}
    (hq : ∀ c ∈ q.alternatives, c.links = []) (h : q.findAll root = .ok found) :
    ((∀ c ∈ q.alternatives, Test.scope ∉ c.head.tests) → ∀ p ∈ root.places, ∀ n ∈ p.children,
      ∃ b, q.matchesAt n (some p) = .ok b ∧ (b = true ↔ n ∈ found)) ∧
    ((∃ b, q.matchesAt (Place.root root) none = .ok b ∧ (b = true ↔ Place.root root ∈ found)) ∨
      ∃ name, q.matchesAt (Place.root root) none = .error (.noParent name)) := by
  constructor
  · intro hscope p hp n hn
    obtain ⟨hmem, position, hin, hat⟩ := positionIn_child hp hn
    have hmatches : q.matchesAt n (some p) = anyAt ⟨n.scope, 0, q.maxDepth, false, false⟩ n
        (root.positionAt? n.path) (Matcher.chains q.alternatives) := by
      rw [matchesAt, hat]
      dsimp only
      rw [hin]
      rfl
    rw [hmatches]
    have heases : ((q.search false root).setting n.path.length).Eases
        ⟨n.scope, 0, q.maxDepth, false, false⟩ := ⟨Nat.add_le_add_left (Nat.zero_le _) _, rfl⟩
    rcases anyAt_of_findAll hq h hmem heases (.inl hscope) with hb | ⟨hdetached, _⟩
    · exact hb
    · cases hdetached
  · have hmem : Place.root root ∈ root.places := Tree.mem_places.2 rfl
    have heases : ((q.search false root).setting (Place.root root).path.length).Eases
        ⟨(Place.root root).scope, 0, q.maxDepth, true, false⟩ := ⟨Nat.le_refl _, rfl⟩
    exact (anyAt_of_findAll hq h hmem heases (.inr rfl)).imp_right And.right

/-- `list:has(item), :last-child` finds a list and the second of its two items, and holds of the
second item asked for alone but not of the first. -/
theorem matchesAt_item_list :
    let hasItem : Test Content := .has [⟨⟨some "item", none, [], [], [], none⟩, []⟩]
    let q : Query Content := ⟨.list [], [⟨⟨some "list", none, [], [], [hasItem], none⟩, []⟩,
      ⟨⟨none, none, [], [], [.structural (.bare (.last .siblings) rfl)], none⟩, []⟩], 512⟩
    let item := Node.ofType "item"
    let root := Node.ofChildren "list" [item, item]
    let found : List (Place Content) := [⟨[], root⟩, ⟨[1], item⟩]
    (∀ c ∈ q.alternatives, c.links = []) ∧ q.findAll root = .ok found ∧
      ∀ n ∈ (Place.root root).children,
        ∃ b, q.matchesAt n (some (Place.root root)) = .ok b ∧ (b = true ↔ n ∈ found) := by
  intro hasItem q item root found
  have hq : ∀ c ∈ q.alternatives, c.links = [] := by simp [q]
  have h : q.findAll root = .ok found := rfl
  have hroot : Place.root root ∈ root.places := Tree.mem_places.2 rfl
  exact ⟨hq, h, (matchesAt_iff_mem_findAll hq h).1 (by simp [q, hasItem]) (Place.root root) hroot⟩

end Query

end DocSelect
