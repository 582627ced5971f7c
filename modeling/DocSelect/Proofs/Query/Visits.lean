import DocSelect.Tree.Node
import DocSelect.Proofs.Query.Depth
import DocSelect.Proofs.Query.FindAll
import DocSelect.Proofs.Query.FindFirst

/-!
# The nodes that a search visits

Only `:has` searches within a test, so without it a search counts just the nodes at which it
tries its own steps. A search for all nodes tries them at every node, once. A search for the
first node does the same until one is found and then tries them nowhere: neither below the node,
nor at its later siblings, nor at those of its ancestors.
-/

namespace DocSelect

variable {α : Type}

/-- Whether no `:has` stands in a pseudo-class, however deep in its brackets. -/
inductive Test.NoHas : Test α → Prop where
  | structural (test : SiblingTest) : NoHas (.structural test)
  | empty : NoHas .empty
  | root : NoHas .root
  | scope : NoHas .scope
  | matches {alternatives : List (Chain (Matcher α))}
      (h : ∀ c ∈ alternatives, ∀ m ∈ c.toList, ∀ t ∈ m.tests, NoHas t) :
      NoHas (.matches alternatives)
  | not {alternatives : List (Chain (Matcher α))}
      (h : ∀ c ∈ alternatives, ∀ m ∈ c.toList, ∀ t ∈ m.tests, NoHas t) :
      NoHas (.not alternatives)
  | custom (handler : Handler α) (argument : Option String) : NoHas (.custom handler argument)

/-- Whether no `:has` stands in a query, at any level. -/
def Query.NoHas (q : Query α) : Prop :=
  ∀ c ∈ q.alternatives, ∀ m ∈ c.toList, ∀ t ∈ m.tests, t.NoHas

section Quiet

/-- A verdict, if there is one, is reached without visiting nodes. -/
def Outcome.Quiet (x : Except MatchError Verdict) : Prop := ∀ v, x = .ok v → v.visits = 0

open Outcome

/-- A step visits no nodes. -/
def Step.Quiet (step : Step α) : Prop :=
  ∀ setting place position, Outcome.Quiet (step.test setting place position)

variable {x : Except MatchError Verdict} {setting : Setting} {place : Place α}
  {position : Option Position}

/-- A verdict by itself visits no nodes. -/
theorem Outcome.quiet_of (holds : Bool) : Quiet (.ok (.of holds)) := by
  intro v h
  rw [← Except.ok.inj h]
  rfl

/-- Two quiet steps in order are quiet. -/
theorem Outcome.Quiet.bind {k : Verdict → Except MatchError Verdict} (h : Quiet x)
    (hk : ∀ v, v.visits = 0 → Quiet (k v)) : Quiet (x >>= k) := by
  intro w hw
  obtain ⟨v, hv, hw⟩ := bind_eq_ok.1 hw
  exact hk v (h v hv) w hw

/-- A verdict may be told in other words or come with one before it. -/
theorem Outcome.Quiet.map {f : Verdict → Verdict} (h : Quiet x)
    (hf : ∀ v, v.visits = 0 → (f v).visits = 0) : Quiet (do let v ← x; return f v) := by
  refine h.bind fun v hv w hw ↦ ?_
  rw [← Except.ok.inj hw]
  exact hf v hv

/-- Structural pseudo-classes look at the position alone. -/
theorem SiblingTest.quiet_verdict (t : SiblingTest) : Quiet (t.verdict setting position) := by
  unfold SiblingTest.verdict
  split
  · exact quiet_of _
  · split
    · intro v h
      cases h
    · exact quiet_of false

/-- Alternatives at the same node are as quiet as their heads. -/
theorem quiet_anyAlone {cs : List (Chain (Step α))} (h : ∀ c ∈ cs, c.head.Quiet) :
    Quiet (anyAlone setting place position cs) := by
  induction cs with
  | nil => exact quiet_of false
  | cons c cs ih =>
    obtain ⟨hc, hcs⟩ := List.forall_mem_cons.1 h
    rw [anyAlone]
    split
    · refine (hc setting place position).bind fun v hv ↦ ?_
      split
      · rintro w ⟨⟩
        exact hv
      · exact (ih hcs).map fun w hw ↦ by rw [hv, hw]
    · exact ih hcs

variable [Element α]

/-- A pseudo-class visits no nodes. -/
def Test.Quiet (t : Test α) : Prop :=
  ∀ setting place position, Outcome.Quiet (t.verdict setting place position)

/-- Pseudo-classes in order are quiet if each of them is. -/
theorem Test.quiet_all {ts : List (Test α)} (h : ∀ t ∈ ts, t.Quiet) :
    Outcome.Quiet (Test.all ts setting place position) := by
  induction ts with
  | nil => exact quiet_of true
  | cons t ts ih =>
    obtain ⟨ht, hts⟩ := List.forall_mem_cons.1 h
    rw [Test.all]
    refine (ht setting place position).bind fun v hv ↦ ?_
    split
    · exact (ih hts).map fun w hw ↦ by rw [hv, hw]
    · rintro w ⟨⟩
      exact hv

/-- A matcher is as quiet as its pseudo-classes. -/
theorem Matcher.quiet_step {m : Matcher α} (h : ∀ t ∈ m.tests, t.Quiet) : m.step.Quiet := by
  obtain ⟨type, id, classes, attributes, tests, combinator⟩ := m
  intro setting place position
  rw [Matcher.step]
  dsimp only
  split
  · intro v h
    cases h
  · split
    · exact Test.quiet_all h
    · exact quiet_of false

/-- The steps of chains are as quiet as the pseudo-classes of their matchers. -/
theorem Matcher.quiet_chains {cs : List (Chain (Matcher α))}
    (h : ∀ c ∈ cs, ∀ m ∈ c.toList, ∀ t ∈ m.tests, t.Quiet) :
    ∀ c ∈ Matcher.chains cs, ∀ step ∈ c.toList, step.Quiet := by
  rw [chains_eq_map]
  intro c hc step hs
  obtain ⟨⟨head, links⟩, hmem, rfl⟩ := List.mem_map.1 hc
  have hs : step ∈ (head :: links).map Matcher.step := by rwa [List.map_cons, ← steps_eq_map]
  obtain ⟨m, hm, rfl⟩ := List.mem_map.1 hs
  exact quiet_step (h ⟨head, links⟩ hmem m hm)

/-- Brackets are as quiet as what stands in them. -/
theorem quiet_anyAlone_chains {cs : List (Chain (Matcher α))}
    (h : ∀ c ∈ cs, ∀ m ∈ c.toList, ∀ t ∈ m.tests, t.Quiet) :
    Outcome.Quiet (anyAlone setting place position (Matcher.chains cs)) :=
  quiet_anyAlone fun c hc ↦ Matcher.quiet_chains h c hc c.head List.mem_cons_self

/-- A pseudo-class without `:has` visits no nodes. -/
theorem Test.NoHas.quiet {t : Test α} (h : t.NoHas) : t.Quiet := by
  -- In brackets the induction knows the pseudo-classes of all their matchers to be quiet.
  induction h with
  | structural t =>
    intro setting place position
    exact t.quiet_verdict
  | empty | root | scope | custom =>
    intro setting place position
    exact quiet_of _
  | «matches» _ ih =>
    intro setting place position
    rw [Test.verdict]
    exact quiet_anyAlone_chains ih
  | not _ ih =>
    intro setting place position
    rw [Test.verdict]
    exact (quiet_anyAlone_chains ih).map fun v hv ↦ hv

/-- The steps of a query without `:has` visit no nodes. -/
theorem Query.NoHas.quiet {q : Query α} (h : q.NoHas) :
    ∀ c ∈ Matcher.chains q.alternatives, ∀ step ∈ c.toList, step.Quiet :=
  Matcher.quiet_chains fun c hc m hm t ht ↦ (h c hc m hm t ht).quiet

end Quiet

namespace Search

open Outcome

section Trial

variable {s : Search α} {place : Place α} {position : Option Position} {ws : List (Waiting α)}

/-- Trying quiet steps visits no further nodes. -/
theorem visits_tryAll {setting : Setting} {t t' : Trial α} (hws : ∀ w ∈ ws, w.All Step.Quiet)
    (h : s.tryAll setting place position ws t = .ok t') : t'.visits = t.visits := by
  induction ws generalizing t with
  | nil =>
    obtain rfl := Except.ok.inj h
    rfl
  | cons w ws ih =>
    obtain ⟨hw, hws⟩ := List.forall_mem_cons.1 hws
    rw [tryAll] at h
    split at h
    · obtain rfl := Except.ok.inj h
      rfl
    · obtain ⟨v, hv, h⟩ := bind_eq_ok.1 h
      have hquiet : v.visits = 0 := hw w.step List.mem_cons_self setting place position v hv
      rw [ih hws h]
      show t.visits + v.visits = t.visits
      rw [hquiet, Nat.add_zero]

/-- A trial of quiet steps visits its own node. -/
theorem visits_trial {depth : Nat} {t : Trial α}
    (hchains : ∀ c ∈ s.chains, ∀ step ∈ c.toList, step.Quiet) (hws : ∀ w ∈ ws, w.All Step.Quiet)
    (h : s.trial depth place position ws = .ok t) : t.visits = 1 :=
  visits_tryAll (Waiting.all_tried hchains hws) h

end Trial

section Visited

variable [Element α] (s : Search α)

mutual
/-- The nodes of a subtree at which a search tries steps, in order. -/
def visited (depth : Nat) (path : Path) (position : Option Position)
    (waiting : List (Waiting α)) : Tree α → List (Place α)
  | .leaf a => [⟨path, .leaf a⟩]
  | .parent a cs =>
    let place : Place α := ⟨path, .parent a cs⟩
    place :: match s.trial depth place position waiting with
      | .error _ => []
      | .ok t =>
        if s.isOver (if t.found then [place] else []) then []
        else if s.maxDepth ≤ depth then []
        else visitedAll (depth + 1) path 0 (Position.all (cs.map Tree.type)) t.pending.below [] cs

/-- The nodes at and below siblings at which a search tries steps, in order. -/
def visitedAll (depth : Nat) (path : Path) (index : Nat) (positions : List Position)
    (inherited carried : List (Waiting α)) : List (Tree α) → List (Place α)
  | [] => []
  | t :: ts =>
    visited depth (path ++ [index]) positions.head? (inherited ++ carried) t ++
      match s.visit depth (path ++ [index]) positions.head? (inherited ++ carried) t with
      | .error _ => []
      | .ok here =>
        if s.isOver here.found then []
        else visitedAll depth path (index + 1) positions.tail inherited here.beside ts
end

end Visited

section Traces

variable (s : Search α)

/-- What a search that went over some nodes in document order visited, found and counted: all of
them while it is not over, and else those up to the only one found. -/
structure Traces (places visited found : List (Place α)) (visits : Nat) : Prop where
  visits : visits = visited.length
  all : s.isOver found = false → visited = places
  upTo : s.isOver found = true →
    ∃ before p behind, found = [p] ∧ visited = before ++ [p] ∧ places = before ++ p :: behind

variable {s} {places visited found places' visited' found' : List (Place α)} {visits visits' : Nat}

/-- A search is over with more nodes found exactly if it is with those. -/
theorem isOver_append (h : s.isOver found = false) :
    s.isOver (found ++ found') = s.isOver found' := by
  cases found with
  | nil => rfl
  | cons p ps =>
    have hall : s.firstOnly = false := by simpa [isOver] using h
    simp [isOver, hall]

/-- A search that is over has a first node. -/
theorem isOver_iff : s.isOver found = true ↔ s.firstOnly = true ∧ found ≠ [] := by
  simp [isOver]

/-- No node to go over leaves no trace. -/
theorem traces_nil : s.Traces [] [] [] 0 where
  visits := rfl
  all _ := rfl
  upTo h := absurd rfl (isOver_iff.1 h).2

/-- A node where steps are tried is visited, whether it is found or not. -/
theorem traces_singleton (place : Place α) (here : Bool) :
    s.Traces [place] [place] (if here then [place] else []) 1 where
  visits := rfl
  all _ := rfl
  upTo h := by
    cases here with
    | true => exact ⟨[], place, [], rfl, rfl, rfl⟩
    | false => exact absurd rfl (isOver_iff.1 h).2

/-- A search that is not over goes on. -/
theorem Traces.append (h : s.Traces places visited found visits) (hgoing : s.isOver found = false)
    (h' : s.Traces places' visited' found' visits') :
    s.Traces (places ++ places') (visited ++ visited') (found ++ found') (visits + visits') where
  visits := by rw [h.visits, h'.visits, List.length_append]
  all hall := by
    rw [isOver_append hgoing] at hall
    rw [h.all hgoing, h'.all hall]
  upTo hover := by
    rw [isOver_append hgoing] at hover
    obtain ⟨before, p, behind, hfound, hvisited, hplaces⟩ := h'.upTo hover
    have hnil : found = [] := by
      have hfirst := (isOver_iff.1 hover).1
      simpa [isOver, hfirst] using hgoing
    refine ⟨visited ++ before, p, behind, ?_, ?_, ?_⟩
    · rw [hnil, hfound, List.nil_append]
    · rw [hvisited, List.append_assoc]
    · rw [hplaces, h.all hgoing, List.append_assoc]

/-- A search that is over goes nowhere else. -/
theorem Traces.stop (h : s.Traces places visited found visits) (hover : s.isOver found = true)
    (places' : List (Place α)) : s.Traces (places ++ places') visited found visits where
  visits := h.visits
  all hall := by
    rw [hover] at hall
    cases hall
  upTo _ := by
    obtain ⟨before, p, behind, hfound, hvisited, hplaces⟩ := h.upTo hover
    refine ⟨before, p, behind ++ places', hfound, hvisited, ?_⟩
    rw [hplaces, List.append_assoc, List.cons_append]

/-- The first item that passes a test stands behind all items that do not. -/
private theorem findIdx_append_cons {β : Type} {test : β → Bool} {before behind : List β} {x : β}
    (hx : test x = true) (hbefore : ∀ y ∈ before, test y = false) :
    (before ++ x :: behind).findIdx test = before.length := by
  rw [List.findIdx_append, List.findIdx_eq_length.2 hbefore, if_neg (Nat.lt_irrefl _),
    List.findIdx_cons, hx]
  exact Nat.zero_add _

/-- A search for the first node visits the nodes up to the first that passes a test if the test
tells which node it finds. -/
theorem Traces.eq_take {test : Place α → Bool} (h : s.Traces places visited found visits)
    (hfirst : s.firstOnly = true) (hnone : found = [] → ∀ p ∈ places, test p = false)
    (hsome : ∀ before p behind, found = [p] → places = before ++ p :: behind →
      test p = true ∧ ∀ u ∈ before, test u = false) :
    visited = places.take (places.findIdx test + 1) := by
  cases hover : s.isOver found with
  | false =>
    have hnil : found = [] := by simpa [isOver, hfirst] using hover
    rw [h.all hover, List.findIdx_eq_length.2 (hnone hnil), List.take_of_length_le (by omega)]
  | true =>
    obtain ⟨before, p, behind, hfound, hvisited, hplaces⟩ := h.upTo hover
    obtain ⟨hp, hbefore⟩ := hsome before p behind hfound hplaces
    rw [hvisited, hplaces, findIdx_append_cons hp hbefore, List.take_length_add_append]
    rfl

end Traces

section Run

variable [Element α] {s : Search α}

mutual
/-- A search of a subtree visits some of its nodes, each once and in document order. -/
theorem sublist_visited : (t : Tree α) → (depth : Nat) → (path : Path) →
    (position : Option Position) → (ws : List (Waiting α)) →
    (s.visited depth path position ws t).Sublist (t.placesAt path)
  | .leaf a, depth, path, position, ws => by
    rw [visited, Tree.placesAt]
  | .parent a cs, depth, path, position, ws => by
    rw [visited, Tree.placesAt]
    refine List.Sublist.cons_cons _ ?_
    cases s.trial depth ⟨path, .parent a cs⟩ position ws with
    | error e => exact List.nil_sublist _
    | ok t =>
      dsimp only
      generalize (if t.found then [Place.mk path (.parent a cs)] else []) = here
      split
      · exact List.nil_sublist _
      split
      · exact List.nil_sublist _
      exact sublist_visitedAll cs (depth + 1) path 0 _ t.pending.below []

/-- A search of siblings visits some of the nodes at and below them, each once and in document
order. -/
theorem sublist_visitedAll : (ts : List (Tree α)) → (depth : Nat) → (path : Path) →
    (index : Nat) → (positions : List Position) → (inherited carried : List (Waiting α)) →
    (s.visitedAll depth path index positions inherited carried ts).Sublist
      (Tree.placesBelow path index ts)
  | [], depth, path, index, positions, inherited, carried => by
    rw [visitedAll]
    exact List.nil_sublist _
  | t :: ts, depth, path, index, positions, inherited, carried => by
    rw [visitedAll, Tree.placesBelow]
    refine (sublist_visited t _ _ _ _).append ?_
    cases s.visit depth (path ++ [index]) positions.head? (inherited ++ carried) t with
    | error e => exact List.nil_sublist _
    | ok here =>
      dsimp only
      split
      · exact List.nil_sublist _
      exact sublist_visitedAll ts depth path (index + 1) positions.tail inherited here.beside
end

mutual
/-- A search of a subtree by quiet steps visits its nodes in document order, up to the first one
found if it is over. -/
theorem traces_visit (hchains : ∀ c ∈ s.chains, ∀ step ∈ c.toList, step.Quiet) :
    (t : Tree α) → {depth : Nat} → {path : Path} → {position : Option Position} →
    {ws : List (Waiting α)} → {hits : Hits α} → (∀ w ∈ ws, w.All Step.Quiet) →
    s.visit depth path position ws t = .ok hits →
    s.Traces (t.placesAt path) (s.visited depth path position ws t) hits.found hits.visits
  | .leaf a, depth, path, position, ws, hits, hws, h => by
    rw [visit] at h
    obtain ⟨t, ht, h⟩ := bind_eq_ok.1 h
    obtain rfl := Except.ok.inj h
    rw [visited, Tree.placesAt]
    dsimp only
    rw [visits_trial hchains hws ht]
    exact traces_singleton _ t.found
  | .parent a cs, depth, path, position, ws, hits, hws, h => by
    rw [visit] at h
    obtain ⟨t, ht, h⟩ := bind_eq_ok.1 h
    -- The node itself is one visit; what is below it comes on top unless the search is over here.
    have hhere := traces_singleton (s := s) ⟨path, .parent a cs⟩ t.found
    have hone := visits_trial hchains hws ht
    rw [visited, Tree.placesAt, ← List.singleton_append]
    dsimp only at h ⊢
    rw [ht]
    dsimp only
    generalize (if t.found then [Place.mk path (.parent a cs)] else []) = here at h hhere ⊢
    cases hover : s.isOver here with
    | true =>
      rw [hover, if_pos rfl] at h
      obtain rfl := Except.ok.inj h
      rw [if_pos rfl, hone]
      exact hhere.stop hover _
    | false =>
      rw [hover, if_neg Bool.false_ne_true] at h
      rw [if_neg Bool.false_ne_true]
      split at h
      · next hnil =>
        obtain rfl := Except.ok.inj h
        obtain rfl := List.isEmpty_iff.1 hnil
        rw [visitedAll, ite_self, hone]
        exact hhere
      · split at h
        · cases h
        · next hdeep =>
          obtain ⟨below, hb, h⟩ := bind_eq_ok.1 h
          obtain rfl := Except.ok.inj h
          have hbelow := (Pending.All.trial hchains hws ht).below
          rw [if_neg hdeep, hone]
          exact hhere.append hover (traces_visitAll hchains cs hbelow (by simp) hb)

/-- A search of siblings by quiet steps visits the nodes at and below them in document order, up
to the first one found if it is over. -/
theorem traces_visitAll (hchains : ∀ c ∈ s.chains, ∀ step ∈ c.toList, step.Quiet) :
    (ts : List (Tree α)) → {depth : Nat} → {path : Path} → {index : Nat} →
    {positions : List Position} → {inherited carried : List (Waiting α)} → {hits : Hits α} →
    (∀ w ∈ inherited, w.All Step.Quiet) → (∀ w ∈ carried, w.All Step.Quiet) →
    s.visitAll depth path index positions inherited carried ts = .ok hits →
    s.Traces (Tree.placesBelow path index ts)
      (s.visitedAll depth path index positions inherited carried ts) hits.found hits.visits
  | [], _, _, _, _, _, _, _, _, _, h => by
    obtain rfl := Except.ok.inj h
    exact traces_nil
  | t :: ts, depth, path, index, positions, inherited, carried, hits, hin, hca, h => by
    rw [visitAll] at h
    obtain ⟨here, hh, h⟩ := bind_eq_ok.1 h
    have hws : ∀ w ∈ inherited ++ carried, w.All Step.Quiet := List.forall_mem_append.2 ⟨hin, hca⟩
    have hhere := traces_visit hchains t hws hh
    rw [visitedAll, Tree.placesBelow, hh]
    dsimp only
    cases hover : s.isOver here.found with
    | true =>
      rw [hover, if_pos rfl] at h
      obtain rfl := Except.ok.inj h
      rw [if_pos rfl, List.append_nil]
      exact hhere.stop hover _
    | false =>
      rw [hover, if_neg Bool.false_ne_true] at h
      obtain ⟨behind, hb, h⟩ := bind_eq_ok.1 h
      obtain rfl := Except.ok.inj h
      rw [if_neg Bool.false_ne_true]
      exact hhere.append hover
        (traces_visitAll hchains ts hin (all_beside_visit hchains hws hh) hb)
end

end Run

end Search

namespace Query

variable [Element α]

/-- The nodes that the search of a query visits, in order. -/
def visited (q : Query α) (firstOnly : Bool) (root : Tree α) : List (Place α) :=
  (q.search firstOnly root).visited 0 [] none [] root

/-- The search of a query without `:has` visits the nodes of a tree in document order, up to the
first one found if it is over. -/
theorem traces_run {q : Query α} (hq : q.NoHas) {firstOnly : Bool} {root : Tree α} {hits : Hits α}
    (h : (q.search firstOnly root).run root = .ok hits) :
    (q.search firstOnly root).Traces root.places (q.visited firstOnly root) hits.found
      hits.visits :=
  Search.traces_visit hq.quiet root (by simp) h

/-- The nodes that a query finds are the nodes of the tree that match. -/
theorem mem_findAll {q : Query α} (hjoined : ∀ c ∈ q.alternatives, c.Joined Matcher.combinator)
    {root : Tree α} {found : List (Place α)} (h : q.findAll root = .ok found) {p : Place α} :
    p ∈ found ↔ p ∈ root.places ∧ q.Matches root p := by
  rw [(finds_findAll hjoined h).mem, Tree.mem_places]
  constructor
  · rintro ⟨path, _, hnode, hm⟩
    obtain ⟨hat, rfl⟩ := (node?_scene q).1 hnode
    exact ⟨hat, hm⟩
  · rintro ⟨hat, hm⟩
    exact ⟨p.path, trivial, (node?_scene q).2 ⟨hat, rfl⟩, hm⟩

/-- No node before the first one found matches. -/
theorem not_matches_before {q : Query α}
    (hjoined : ∀ c ∈ q.alternatives, c.Joined Matcher.combinator) {root : Tree α}
    {p : Place α} {found before behind : List (Place α)} (h : q.findAll root = .ok (p :: found))
    (hplaces : root.places = before ++ p :: behind) : ∀ u ∈ before, ¬ q.Matches root u := by
  intro u hu hm
  have hordered := root.ordered_places
  rw [hplaces] at hordered
  have hlt : u.path < p.path := (List.pairwise_append.1 hordered).2.2 u hu p List.mem_cons_self
  have hmem : u ∈ root.places := by
    rw [hplaces]
    exact List.mem_append_left _ hu
  rcases List.mem_cons.1 ((mem_findAll hjoined h).2 ⟨hmem, hm⟩) with rfl | hbehind
  · exact List.lt_irrefl _ hlt
  · have hgt := (List.pairwise_cons.1 (finds_findAll hjoined h).ordered).1 u hbehind
    exact List.lt_asymm hlt hgt

open scoped Classical in
/-- Without `:has` the search for all nodes of a query visits every node of a tree once, and the
search for the first one visits the nodes of the document order up to the first one that matches,
or all of them if none does. -/
theorem visited_up_to_first {q : Query α}
    (hjoined : ∀ c ∈ q.alternatives, c.Joined Matcher.combinator) (hq : q.NoHas) {root : Tree α}
    {found : List (Place α)} (h : q.findAll root = .ok found) :
    q.visited false root = root.places ∧ q.visits false root = .ok root.places.length ∧
      q.visited true root =
        root.places.take (root.places.findIdx (fun p ↦ q.Matches root p) + 1) ∧
      q.visits true root = .ok (q.visited true root).length := by
  obtain ⟨all, hall, _⟩ := Outcome.bind_eq_ok.1 h
  obtain ⟨first, hfirst, hhead⟩ := Outcome.bind_eq_ok.1 (findFirst_of_findAll h)
  have hhead : first.found.head? = found.head? := Except.ok.inj hhead
  have hfull := traces_run hq hall
  have hshort := traces_run hq hfirst
  have hvisited : q.visited false root = root.places := hfull.all (Search.isOver_full rfl _)
  have hnone : first.found = [] → ∀ p ∈ root.places, decide (q.Matches root p) = false := by
    intro hnil p hp
    rw [hnil, List.head?_nil, eq_comm, List.head?_eq_none_iff] at hhead
    subst hhead
    exact decide_eq_false fun hm ↦ List.not_mem_nil ((mem_findAll hjoined h).2 ⟨hp, hm⟩)
  have hsome : ∀ before p behind, first.found = [p] → root.places = before ++ p :: behind →
      decide (q.Matches root p) = true ∧ ∀ u ∈ before, decide (q.Matches root u) = false := by
    intro before p behind hone hplaces
    rw [hone, List.head?_cons, eq_comm, List.head?_eq_some_iff] at hhead
    obtain ⟨rest, rfl⟩ := hhead
    have hbefore := not_matches_before hjoined h hplaces
    exact ⟨decide_eq_true ((mem_findAll hjoined h).1 List.mem_cons_self).2,
      fun u hu ↦ decide_eq_false (hbefore u hu)⟩
  refine ⟨hvisited, ?_, hshort.eq_take rfl hnone hsome, ?_⟩
  · rw [← hvisited, ← hfull.visits, visits, hall]
    rfl
  · rw [← hshort.visits, visits, hfirst]
    rfl

open scoped Classical in
/-- Among `item`, `b` and `b`, each with a child, the first `b` that is not the first child is
found after four of seven nodes. -/
theorem visited_up_to_first_b :
    let bare : Matcher Content := ⟨none, none, [], [], [], none⟩
    let first : Matcher Content :=
      { bare with tests := [.structural (.bare (.first .siblings) rfl)] }
    let q : Query Content := ⟨.chain ⟨Compound.blank, []⟩,
      [⟨{ bare with type := some "b", tests := [.not [⟨first, []⟩]] }, []⟩], 512⟩
    let a := Node.ofText "text" "a"
    let b := Node.ofChildren "b" [a]
    let root := Node.ofChildren "list" [Node.ofChildren "item" [a], b, b]
    (∀ c ∈ q.alternatives, c.Joined Matcher.combinator) ∧ q.NoHas ∧
      q.findAll root = .ok [⟨[1], b⟩, ⟨[2], b⟩] ∧ q.visits false root = .ok 7 ∧
      q.visited true root =
        root.places.take (root.places.findIdx (fun p ↦ q.Matches root p) + 1) ∧
      q.visits true root = .ok 4 := by
  intro bare first q a b root
  have hjoined : ∀ c ∈ q.alternatives, c.Joined Matcher.combinator := by
    intro c hc
    obtain rfl := List.mem_singleton.1 hc
    exact ⟨rfl, nofun⟩
  have hq : q.NoHas := by
    intro c hc m hm t ht
    obtain rfl := List.mem_singleton.1 hc
    obtain rfl := List.mem_singleton.1 hm
    obtain rfl := List.mem_singleton.1 ht
    refine .not fun c hc m hm t ht ↦ ?_
    obtain rfl := List.mem_singleton.1 hc
    obtain rfl := List.mem_singleton.1 hm
    obtain rfl := List.mem_singleton.1 ht
    exact .structural _
  have h : q.findAll root = .ok [⟨[1], b⟩, ⟨[2], b⟩] := rfl
  obtain ⟨_, hfull, hvisited, hshort⟩ := visited_up_to_first hjoined hq h
  exact ⟨hjoined, hq, h, hfull, hvisited, hshort⟩

end Query

end DocSelect
