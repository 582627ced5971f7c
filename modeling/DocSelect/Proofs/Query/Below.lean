import DocSelect.Proofs.Query.FindAll
import DocSelect.Proofs.Query.FindFirst

/-!
# Searching below a node

`:has` searches strictly below a node and stops at the first find. Such a search does not see all
that waits at a node, but whatever it tries arrives there, so what it finds matches. If it finds
nothing it is the full search, and nothing matches. Hence `:has` says whether a chain matches at
nodes below.
-/

namespace DocSelect

variable {α : Type}

namespace Search

open Scene

/-- A search asks what the tests of a scene ask, for chains of compounds that are joined by
combinators. It may stop early. -/
structure Asks (s : Search α) (g : Scene α) : Prop where
  scope : s.scope = g.scope
  maxDepth : s.maxDepth = g.maxDepth
  joined : ∀ c ∈ s.chains, c.Joined Step.combinator

variable {s : Search α} {g : Scene α} {path : Path} {place : Place α} {ws : List (Waiting α)}
  {t : Trial α}

/-- The same search, made for all nodes, covers the scene. -/
theorem Asks.covers (hs : s.Asks g) : (s.stopping false).Covers g where
  all := rfl
  scope := hs.scope
  maxDepth := hs.maxDepth
  joined := hs.joined

/-- A trial that stops early is a full trial of the steps up to its find. -/
theorem exists_tried {setting : Setting} {position : Option Position} {t' : Trial α}
    (h : s.tryAll setting place position ws t = .ok t') :
    ∃ tried, tried.Sublist ws ∧
      (s.stopping false).tryAll setting place position tried t = .ok t' := by
  induction ws generalizing t with
  | nil => exact ⟨[], List.Sublist.refl [], h⟩
  | cons w ws ih =>
    rw [tryAll] at h
    split at h
    · exact ⟨[], List.nil_sublist _, h⟩
    · obtain ⟨v, hv, h⟩ := Outcome.bind_eq_ok.1 h
      obtain ⟨tried, hsub, htried⟩ := ih h
      refine ⟨w :: tried, hsub.cons_cons w, ?_⟩
      simp only [tryAll, stopping, Bool.false_and, Bool.false_eq_true, if_false, hv]
      exact htried

variable [Element α]

/-- Of the steps tried at a node, those that are accepted hold there. -/
theorem Asks.holds_of_tried (hs : s.Asks g) (hnode : g.node? path = some place)
    (hw : ∀ w ∈ ws, g.Arrives s.chains w path) {w : Waiting α}
    (hm : w ∈ ws ++ Waiting.heads s.chains)
    (ha : w.step.Accepts (s.setting (g.depth + path.length)) place (g.top.tree.positionAt? path)) :
    g.Holds s.chains w path := by
  refine holds_iff.2 ⟨?_, (passes_iff hs.scope hs.maxDepth hnode w.step).1 ha⟩
  rcases List.mem_append.1 hm with hm | hm
  · exact .inr (hw w hm)
  · exact .inl hm

/-- After a trial only links wait that follow the node, and those that arrived and go on. -/
theorem Asks.waitingFor_trial (hs : s.Asks g) (hnode : g.node? path = some place)
    (hw : ∀ w ∈ ws, g.Arrives s.chains w path)
    (h : s.trial (g.depth + path.length) place (g.top.tree.positionAt? path) ws = .ok t)
    (op : Combinator) {x : Waiting α} (hx : x ∈ t.pending.waitingFor op) :
    x.step.combinator = some op ∧ (g.Follows s.chains x path ∨
      g.Arrives s.chains x path ∧ (op = .descendant ∨ op = .laterSibling)) := by
  obtain ⟨tried, hsub, htried⟩ := exists_tried h
  have hbelongs : ∀ w ∈ tried, w.Belongs s.chains := by
    intro w hm
    rcases List.mem_append.1 (hsub.subset hm) with hm | hm
    · exact (hw w hm).belongs
    · exact Waiting.belongs_of_mem_heads hm
  rw [mem_waitingFor_tryAll_of_joined rfl hs.joined hbelongs Pending.within_none htried] at hx
  rcases hx with hx | ⟨hop, hx⟩
  · cases op <;> cases hx
  · refine ⟨hop, ?_⟩
    rcases hx with ⟨u, hu, ha, hn⟩ | ⟨hx, hst⟩
    · exact .inl ⟨u, hs.holds_of_tried hnode hw (hsub.subset hu) ha, hn⟩
    · rcases List.mem_append.1 (hsub.subset hx) with hx | hx
      · exact .inr ⟨hw x hx, (Waiting.stays_iff hop).1 hst⟩
      · rw [Waiting.not_stays_of_mem_heads hs.joined hx] at hst
        cases hst

/-- A trial finds no node but one that matches. -/
theorem Asks.matches_of_found (hs : s.Asks g) (hnode : g.node? path = some place)
    (hw : ∀ w ∈ ws, g.Arrives s.chains w path)
    (h : s.trial (g.depth + path.length) place (g.top.tree.positionAt? path) ws = .ok t)
    (hfound : t.found = true) : ∃ c ∈ s.chains, g.Matches c path := by
  obtain ⟨tried, hsub, htried⟩ := exists_tried h
  rcases (found_tryAll rfl htried).1 hfound with hno | ⟨w, hm, ha, hr⟩
  · cases hno
  · exact exists_last_iff.1 ⟨w, hs.holds_of_tried hnode hw (hsub.subset hm) ha, hr⟩

/-- At every node only links wait that arrive there, so a trial finds only nodes that match. -/
def Asks.invariant (hs : s.Asks g) : s.Invariant g where
  waits path ws := ∀ w ∈ ws, g.Arrives s.chains w path
  below path ws := ∀ w ∈ ws, g.Inherits s.chains w path
  beside path ws := ∀ w ∈ ws, g.Carries s.chains w path
  tells path _ found := found = true → ∃ c ∈ s.chains, g.Matches c path
  waits_first hb w hw := arrives_snoc.2 (.inl (hb w hw))
  waits_next hb hn w hw := by
    rcases List.mem_append.1 hw with hw | hw
    · exact arrives_snoc.2 (.inl (hb w hw))
    · exact arrives_snoc.2 (.inr ⟨_, rfl, hn w hw⟩)
  trial hnode hw h := by
    refine ⟨hs.matches_of_found hnode hw h, fun w hm ↦ ?_, fun w hm ↦ ?_⟩
    · rcases List.mem_append.1 hm with hm | hm
      · obtain ⟨hop, hx⟩ := hs.waitingFor_trial hnode hw h .descendant hm
        exact .inl ⟨hop, hx.imp_right And.left⟩
      · obtain ⟨hop, hx | ⟨_, hx⟩⟩ := hs.waitingFor_trial hnode hw h .child hm
        · exact .inr ⟨hop, hx⟩
        · simp at hx
    · rcases List.mem_append.1 hm with hm | hm
      · obtain ⟨hop, hx⟩ := hs.waitingFor_trial hnode hw h .laterSibling hm
        exact .inl ⟨hop, hx.imp_right And.left⟩
      · obtain ⟨hop, hx | ⟨_, hx⟩⟩ := hs.waitingFor_trial hnode hw h .nextSibling hm
        · exact .inr ⟨hop, hx⟩
        · simp at hx

/-- A search below a node that stops at its first find foretells the full one. -/
theorem foretells_runBelow (depth : Nat) (place : Place α) :
    Outcome.Foretells Hits.first? ((s.stopping true).runBelow depth place)
      ((s.stopping false).runBelow depth place) := by
  unfold runBelow
  split
  · exact Outcome.foretells_of_none rfl
  · split
    · exact Outcome.foretells_of_none rfl
    · split
      · next hdeep =>
        rw [if_pos (show (s.stopping false).maxDepth ≤ depth from hdeep)]
        exact Outcome.foretells_error _
      · next hdeep =>
        rw [if_neg (show ¬ (s.stopping false).maxDepth ≤ depth from hdeep)]
        exact foretells_visitAll _ _ _ _ _ _ _

end Search

namespace Tree

variable [Element α]

/-- A node keeps its siblings, and so its position among them, in every tree around it. -/
theorem positionAt?_append {root t : Tree α} {top path : Path} (h : root.at? top = some t)
    (hne : path ≠ []) : root.positionAt? (top ++ path) = t.positionAt? path := by
  obtain ⟨init, i, rfl⟩ := (List.eq_nil_or_concat path).resolve_left hne
  simp [positionAt?, ← List.append_assoc, at?_append, h]

end Tree

namespace Scene

/-- All that is strictly below a node, as a test of that node asks about it. There `:scope`
stands for the node. -/
def below (setting : Setting) (top : Place α) : Scene α :=
  ⟨top, false, [top.path], setting.depth, setting.maxDepth⟩

/-- The nodes strictly below a node of a tree are its proper descendants in that tree. -/
theorem node?_below {setting : Setting} {top p : Place α} {path : Path} :
    (below setting top).node? path = some p ↔
      path ≠ [] ∧ p.path = top.path ++ path ∧ top.tree.at? path = some p.tree := by
  obtain ⟨full, t⟩ := p
  simp only [node?, below, and_true]
  split
  · next h => simp [h]
  · next h =>
    simp only [Option.map_eq_some_iff, Place.mk.injEq, ne_eq, h, not_false_eq_true, true_and]
    constructor
    · rintro ⟨u, hu, rfl, rfl⟩
      exact ⟨rfl, hu⟩
    · rintro ⟨rfl, hu⟩
      exact ⟨t, hu, rfl, rfl⟩

variable [Element α] {g : Scene α} {chains : List (Chain (Step α))}

/-- The last node of a chain takes part, like all its nodes. -/
theorem Joins.exists_node {steps : List (Step α)} {a b : Path} (h : g.Joins steps a b)
    (ha : ∃ p, g.node? a = some p) : ∃ p, g.node? b = some p := by
  induction steps generalizing a with
  | nil =>
    obtain rfl : a = b := h
    exact ha
  | cons step steps ih =>
    obtain ⟨_, m, _, _, ⟨p, hp, _⟩, hj⟩ := h
    exact ih hj ⟨p, hp⟩

/-- A matching node takes part. -/
theorem Matches.exists_node {c : Chain (Step α)} {path : Path} (h : g.Matches c path) :
    ∃ p, g.node? path = some p := by
  obtain ⟨first, ⟨p, hp, _⟩, hj⟩ := h
  exact hj.exists_node ⟨p, hp⟩

/-- Where the top takes no part nothing is inherited from it. -/
theorem not_inherits_nil (htop : g.withTop = false) (w : Waiting α) :
    ¬ g.Inherits chains w [] := by
  have hfollows : ¬ g.Follows chains w [] := by
    rintro ⟨u, hu, _⟩
    obtain ⟨_, _, hp, _⟩ := holds_iff.1 hu
    simp [node?, htop] at hp
  rintro (⟨_, hf | ha⟩ | ⟨_, hf⟩)
  · exact hfollows hf
  · exact not_arrives_nil w ha
  · exact hfollows hf

end Scene

section Has

variable [Element α]

/-- A search below a node says whether a chain matches there. -/
theorem holds_hasBelow {setting : Setting} {place : Place α} {chains : List (Chain (Step α))}
    {v : Verdict} (hj : ∀ c ∈ chains, c.Joined Step.combinator)
    (h : hasBelow setting place chains = .ok v) :
    v.holds = true ↔ ∃ c ∈ chains, ∃ path, (Scene.below setting place).Matches c path := by
  obtain ⟨hits, hr, h⟩ := Outcome.bind_eq_ok.1 h
  obtain rfl := Except.ok.inj h
  let s : Search α := ⟨chains, true, [place.path], setting.maxDepth⟩
  have hs : s.Asks (Scene.below setting place) := ⟨rfl, rfl, hj⟩
  have hsound := hs.invariant.told_runBelow rfl (fun w hw ↦ absurd hw List.not_mem_nil) hr
  show (!hits.found.isEmpty) = true ↔ _
  constructor
  · intro hne
    cases hfound : hits.found with
    | nil =>
      rw [hfound] at hne
      cases hne
    | cons p ps =>
      obtain ⟨path, _, _, htells⟩ := hsound.found p (hfound ▸ List.mem_cons_self)
      obtain ⟨c, hc, hm⟩ := htells rfl
      exact ⟨c, hc, path, hm⟩
  · rintro ⟨c, hc, path, hm⟩
    cases hfound : hits.found with
    | cons p ps => rfl
    | nil =>
      -- without a find the short search is the full one, which would not have missed the node
      have hfull : (s.stopping false).runBelow setting.depth place = .ok hits := by
        rcases Search.foretells_runBelow (s := s) setting.depth place with
          ⟨hsame, _⟩ | ⟨b, hb, hsome, _⟩
        · exact hsame.symm.trans hr
        · obtain rfl : hits = b := Except.ok.inj (hr.symm.trans hb)
          simp [Hits.first?, hfound] at hsome
      have htold := hs.covers.invariant.told_runBelow rfl (fun w ↦ by
        simp [Scene.not_inherits_nil (g := Scene.below setting place) rfl w]) hfull
      obtain ⟨p, hp⟩ := hm.exists_node
      rcases htold.missed rfl path p trivial hp with hmem | htells
      · rw [hfound] at hmem
        cases hmem
      · cases htells.2 ⟨c, hc, hm⟩

/-- If `:has` is answered at a node of a tree, it holds exactly if some alternative of its
argument has a chain of nodes strictly below that node, with the node as `:scope`. All nodes of
such a chain are proper descendants, tested at the positions that they have in the tree. -/
theorem Test.holds_has_iff {o : QueryOptions α} {s : Selector}
    {alternatives : List (Chain (Matcher α))} {root : Tree α} {n : Place α} {setting : Setting}
    {position : Option Position} {v : Verdict} (hs : s.Joined) (hr : s.resolve o = .ok alternatives)
    (hn : n ∈ root.places) (h : (Test.has alternatives).verdict setting n position = .ok v) :
    (v.holds = true ↔ ∃ c ∈ Matcher.chains alternatives, ∃ path,
      (Scene.below setting n).Matches c path) ∧
    ∀ path p, (Scene.below setting n).node? path = some p →
      path ≠ [] ∧ p.path = n.path ++ path ∧ p ∈ root.places ∧
        n.tree.positionAt? path = root.positionAt? p.path := by
  rw [Test.verdict] at h
  refine ⟨holds_hasBelow (Matcher.joined_chains (Selector.joined_resolve hr hs)) h, ?_⟩
  intro path p hp
  obtain ⟨hne, hpath, hat⟩ := Scene.node?_below.1 hp
  have hroot : root.at? n.path = some n.tree := Tree.mem_places.1 hn
  refine ⟨hne, hpath, ?_, ?_⟩
  · rw [Tree.mem_places, hpath, Tree.at?_append, hroot]
    exact hat
  · rw [hpath, Tree.positionAt?_append hroot hne]

/-- Within `:not` an item has a text behind a label, both directly below it. -/
theorem Test.holds_has_label_text :
    let label : Compound := { Compound.blank with type := some (.named "label") }
    let text : Compound := { Compound.blank with
      type := some (.named "text"), pseudos := [⟨"last-child", .none⟩] }
    let scope : Compound := { Compound.blank with pseudos := [⟨"scope", .none⟩] }
    let s : Selector := .list [⟨scope, []⟩,
      ⟨label, [{ text with combinator := some .nextSibling }]⟩]
    let alternatives : List (Chain (Matcher Content)) :=
      [⟨⟨none, none, [], [], [.scope], none⟩, []⟩, ⟨⟨some "label", none, [], [], [], none⟩,
        [⟨some "text", none, [], [], [.structural (.bare (.last .siblings) rfl)],
          some .nextSibling⟩]⟩]
    let item := Node.ofChildren "item" [Node.ofType "label", Node.ofText "text" "a"]
    let root := Node.ofChildren "list" [Node.ofType "text", item]
    let n : Place Content := ⟨[1], item⟩
    let setting : Setting := ⟨[[1]], 1, 512, false, true⟩
    s.Joined ∧ s.resolve QueryOptions.default = .ok alternatives ∧ n ∈ root.places ∧
      (Test.has alternatives).verdict setting n none = .ok ⟨true, 2⟩ ∧
      ∃ c ∈ Matcher.chains alternatives, ∃ path, (Scene.below setting n).Matches c path := by
  intro label text scope s alternatives item root n setting
  have hs : s.Joined := by
    intro c hc
    rcases List.mem_pair.1 hc with rfl | rfl
    · exact ⟨rfl, by decide⟩
    · exact ⟨rfl, by decide⟩
  have hr : s.resolve QueryOptions.default = .ok alternatives := rfl
  have hn : n ∈ root.places := Tree.mem_places.2 rfl
  have h : (Test.has alternatives).verdict setting n none = .ok ⟨true, 2⟩ := rfl
  exact ⟨hs, hr, hn, h, (Test.holds_has_iff hs hr hn h).1.1 rfl⟩

end Has

end DocSelect
