import DocSelect.Proofs.Query.Trace
import Mathlib.Data.List.ProdSigma
import Mathlib.Data.List.Sigma

/-!
# The steps that a search tests

A step is known by the numbers of its chain and of its place there. The steps that wait at a node
come from four lists, two that its parent left and two that its previous sibling left, and behind
them the heads of all chains are tried. No step stands in one of these lists twice, as a list
takes in no step that it holds, and none stands in two of them, as each list holds the steps that
reach the same nodes. Heads never wait. So no step is tested twice at a node, and a search makes
at most as many tests as there are pairs of a step and a node.
-/

namespace DocSelect

variable {α : Type}

/-! ### Steps that wait -/

namespace Waiting

/-- The numbers of a step: that of its chain, and that of its place in the chain. -/
def number (w : Waiting α) : Nat × Nat := (w.chain, w.link)

/-- Steps are the same exactly if their numbers are. -/
theorem same_iff {w v : Waiting α} : w.same v = true ↔ w.number = v.number := by
  simp [same, number]

/-- Some steps wait in a list: they are links behind heads, each reaches where one of some
combinators leads, and no step is there twice. -/
structure Queue (chains : List (Chain (Step α))) (ops : List Combinator) (ws : List (Waiting α)) :
    Prop where
  belongs : ∀ w ∈ ws, w.Belongs chains
  behind : ∀ w ∈ ws, w.link ≠ 0
  reach : ∀ w ∈ ws, w.step.reach ∈ ops
  nodup : (ws.map number).Nodup

variable {chains : List (Chain (Step α))} {ops ops' : List Combinator} {w : Waiting α}
  {ws vs : List (Waiting α)}

namespace Queue

/-- An empty list holds no step twice. -/
theorem nil : Queue chains ops [] where
  belongs _ hw := nomatch hw
  behind _ hw := nomatch hw
  reach _ hw := nomatch hw
  nodup := List.nodup_nil

/-- Lists of steps that reach different nodes share no step. -/
theorem append (h : Queue chains ops ws) (h' : Queue chains ops' vs)
    (hops : ∀ op ∈ ops, op ∉ ops') : Queue chains (ops ++ ops') (ws ++ vs) where
  belongs := List.forall_mem_append.2 ⟨h.belongs, h'.belongs⟩
  behind := List.forall_mem_append.2 ⟨h.behind, h'.behind⟩
  reach := List.forall_mem_append.2
    ⟨fun w hw ↦ List.mem_append_left _ (h.reach w hw),
      fun w hw ↦ List.mem_append_right _ (h'.reach w hw)⟩
  nodup := by
    rw [List.map_append]
    refine List.nodup_append.2 ⟨h.nodup, h'.nodup, ?_⟩
    intro n hn m hm hnm
    obtain ⟨w, hw, rfl⟩ := List.mem_map.1 hn
    obtain ⟨v, hv, rfl⟩ := List.mem_map.1 hm
    have hsame : w = v := (h.belongs w hw).eq_of_same (h'.belongs v hv) (same_iff.2 hnm)
    subst hsame
    exact hops _ (h.reach w hw) (h'.reach w hv)

/-- A list takes in no step that it holds. -/
theorem addWaiting (h : Queue chains ops ws) (hw : w.Belongs chains) (hlink : w.link ≠ 0)
    (hop : w.step.reach ∈ ops) : Queue chains ops (addWaiting w ws) := by
  unfold DocSelect.addWaiting
  split
  · exact h
  · next hnew =>
    refine ⟨List.forall_mem_append.2 ⟨h.belongs, List.forall_mem_singleton.2 hw⟩,
      List.forall_mem_append.2 ⟨h.behind, List.forall_mem_singleton.2 hlink⟩,
      List.forall_mem_append.2 ⟨h.reach, List.forall_mem_singleton.2 hop⟩, ?_⟩
    rw [List.map_append]
    refine List.nodup_append.2 ⟨h.nodup, List.nodup_singleton _, ?_⟩
    intro n hn m hm hnm
    obtain ⟨v, hv, rfl⟩ := List.mem_map.1 hn
    obtain rfl := List.mem_singleton.1 hm
    exact hnew (List.any_eq_true.2 ⟨v, hv, same_iff.2 hnm.symm⟩)

end Queue

/-- No chain has two heads. -/
theorem nodup_heads (chains : List (Chain (Step α))) : ((heads chains).map number).Nodup := by
  have hnumbers : (heads chains).map number = (chains.zipIdx.map Prod.snd).map fun i ↦ (i, 0) := by
    rw [heads, List.map_map, List.map_map]
    rfl
  rw [hnumbers]
  exact (List.nodup_zipIdx_map_snd chains).map fun i j hij ↦ (Prod.mk.inj hij).1

/-- The numbers of all steps of some chains. -/
def numbers (chains : List (Chain (Step α))) : List (Nat × Nat) :=
  chains.zipIdx.flatMap fun (c, i) ↦ (List.range c.toList.length).map fun j ↦ (i, j)

/-- A step of some chains has one of their numbers. -/
theorem Belongs.number_mem (h : w.Belongs chains) : w.number ∈ numbers chains := by
  obtain ⟨c, hc, hd⟩ := h
  have hlt : w.link < c.toList.length := by
    by_contra hle
    rw [List.drop_eq_nil_of_le (Nat.le_of_not_lt hle)] at hd
    cases hd
  refine List.mem_flatMap.2 ⟨(c, w.chain), List.mk_mem_zipIdx_iff_getElem?.2 hc, ?_⟩
  exact List.mem_map.2 ⟨w.link, List.mem_range.2 hlt, rfl⟩

/-- Chains have as many numbers as steps. -/
theorem length_numbers (chains : List (Chain (Step α))) :
    (numbers chains).length = (chains.map fun c ↦ c.toList.length).sum := by
  simp only [numbers, List.length_flatMap, List.length_map, List.length_range]
  congr 1
  conv_rhs => rw [← List.zipIdx_map_fst 0 chains, List.map_map]
  rfl

/-- No step that waits is a head, so none is tried twice. -/
theorem Queue.nodup_tried (h : Queue chains ops ws) :
    ((ws ++ heads chains).map number).Nodup := by
  rw [List.map_append]
  refine List.nodup_append.2 ⟨h.nodup, nodup_heads chains, ?_⟩
  intro n hn m hm hnm
  obtain ⟨w, hw, rfl⟩ := List.mem_map.1 hn
  obtain ⟨v, hv, rfl⟩ := List.mem_map.1 hm
  obtain ⟨i, c, -, rfl⟩ := mem_heads.1 hv
  exact h.behind w hw (congrArg Prod.snd hnm)

end Waiting

/-- The combinators of the steps that a node leaves for its children. -/
def Combinator.downward : List Combinator := [descendant, child]

/-- The combinators of the steps that a node leaves for its siblings. -/
def Combinator.sideways : List Combinator := [laterSibling, nextSibling]

namespace Pending

open Waiting (Queue)

/-- Each list of the steps that wait holds those that reach the same nodes, none of them twice. -/
def Queued (chains : List (Chain (Step α))) (p : Pending α) : Prop :=
  ∀ op, Queue chains [op] (p.waitingFor op)

variable {chains : List (Chain (Step α))} {p : Pending α}

private theorem queued_none : (Pending.none : Pending α).Queued chains := by
  intro op
  cases op <;> exact .nil

/-- A link behind a head is added to the list of those that reach the same nodes. -/
theorem Queued.add {w : Waiting α} (hp : p.Queued chains) (hw : w.Belongs chains)
    (hlink : w.link ≠ 0) : (p.add w).Queued chains := by
  intro op
  rw [waitingFor_add]
  split
  · next hop => exact (hp op).addWaiting hw hlink (List.mem_singleton.2 hop.symm)
  · exact hp op

/-- The steps that wait for children reach descendants or children. -/
theorem Queued.below (hp : p.Queued chains) : Queue chains Combinator.downward p.below :=
  (hp .descendant).append (hp .child) (by decide)

/-- The steps that wait for siblings reach later or next siblings. -/
theorem Queued.beside (hp : p.Queued chains) : Queue chains Combinator.sideways p.beside :=
  (hp .laterSibling).append (hp .nextSibling) (by decide)

end Pending

namespace Visit

/-- Whether the steps that wait at a visit are links behind heads, none of them twice. -/
def Queued (s : Search α) (v : Visit α) : Prop :=
  Waiting.Queue s.chains (Combinator.downward ++ Combinator.sideways) v.waiting

/-- Whatever is tried at a visit is a step of the chains. -/
theorem Queued.belongs {s : Search α} {v : Visit α} (h : v.Queued s) :
    ∀ w ∈ v.waiting ++ Waiting.heads s.chains, w.Belongs s.chains :=
  List.forall_mem_append.2 ⟨Waiting.Queue.belongs h, fun _ ↦ Waiting.belongs_of_mem_heads⟩

end Visit

namespace Search

open Outcome
open Waiting (Queue)

section Trial

variable {s : Search α} {chains : List (Chain (Step α))} {setting : Setting} {place : Place α}
  {position : Option Position} {ws : List (Waiting α)} {t t' : Trial α}

/-- A tried step leaves links behind heads: the one behind it, and itself if it goes on waiting. -/
theorem queued_record {w : Waiting α} {v : Verdict} (hw : w.Belongs chains)
    (hstays : w.stays = true → w.link ≠ 0) (ht : t.pending.Queued chains) :
    (record w v t).pending.Queued chains := by
  have hp :
      (if v.holds then w.next?.elim t.pending t.pending.add else t.pending).Queued chains := by
    split
    · cases hn : w.next? with
      | none => exact ht
      | some u =>
        refine ht.add (hw.next hn) ?_
        rw [(Waiting.next?_eq_some.1 hn).2.2]
        exact Nat.succ_ne_zero _
    · exact ht
  unfold record
  dsimp only
  split
  · next hs => exact hp.add hw (hstays hs)
  · exact hp

/-- Trying steps of which no head goes on waiting leaves links behind heads. -/
theorem queued_tryAll (hws : ∀ w ∈ ws, w.Belongs chains ∧ (w.stays = true → w.link ≠ 0))
    (ht : t.pending.Queued chains) (h : s.tryAll setting place position ws t = .ok t') :
    t'.pending.Queued chains := by
  induction ws generalizing t with
  | nil =>
    obtain rfl := Except.ok.inj h
    exact ht
  | cons w ws ih =>
    obtain ⟨⟨hw, hstays⟩, hws⟩ := List.forall_mem_cons.1 hws
    rw [tryAll] at h
    split at h
    · obtain rfl := Except.ok.inj h
      exact ht
    · obtain ⟨v, -, h⟩ := bind_eq_ok.1 h
      exact ih hws (queued_record hw hstays ht) h

/-- Where no step waits twice a trial makes none wait twice, if the heads of chains do not wait. -/
theorem queued_trial {depth : Nat} {ops : List Combinator}
    (hjoined : ∀ c ∈ s.chains, c.Joined Step.combinator) (hws : Queue s.chains ops ws)
    (h : s.trial depth place position ws = .ok t) : t.pending.Queued s.chains := by
  refine queued_tryAll (List.forall_mem_append.2 ⟨?_, ?_⟩) Pending.queued_none h
  · intro w hw
    exact ⟨hws.belongs w hw, fun _ ↦ hws.behind w hw⟩
  · intro w hw
    refine ⟨Waiting.belongs_of_mem_heads hw, fun hstays ↦ ?_⟩
    rw [Waiting.not_stays_of_mem_heads hjoined hw] at hstays
    cases hstays

end Trial

section Trace

variable [Element α] {s : Search α}

mutual
/-- At no visit of a search of a subtree a step waits twice. -/
theorem queue_trace (hjoined : ∀ c ∈ s.chains, c.Joined Step.combinator) :
    (t : Tree α) → {depth : Nat} → {path : Path} → {position : Option Position} →
    {ws : List (Waiting α)} →
    Queue s.chains (Combinator.downward ++ Combinator.sideways) ws →
    ∀ v ∈ s.trace depth path position ws t, v.Queued s
  | .leaf a, depth, path, position, ws, hws => by
    rw [trace, List.forall_mem_singleton]
    exact hws
  | .parent a cs, depth, path, position, ws, hws => by
    rw [trace, List.forall_mem_cons]
    refine ⟨hws, ?_⟩
    cases ht : s.trial depth ⟨path, .parent a cs⟩ position ws with
    | error e => exact List.forall_mem_nil _
    | ok t =>
      dsimp only
      generalize (if t.found then [Place.mk path (.parent a cs)] else []) = here
      split
      · exact List.forall_mem_nil _
      split
      · exact List.forall_mem_nil _
      exact queue_traceAll hjoined cs (queued_trial hjoined hws ht).below .nil

/-- At no visit of a search of siblings a step waits twice, as those that their parent left are
others than those that their previous sibling left. -/
theorem queue_traceAll (hjoined : ∀ c ∈ s.chains, c.Joined Step.combinator) :
    (ts : List (Tree α)) → {depth : Nat} → {path : Path} → {index : Nat} →
    {positions : List Position} → {inherited carried : List (Waiting α)} →
    Queue s.chains Combinator.downward inherited → Queue s.chains Combinator.sideways carried →
    ∀ v ∈ s.traceAll depth path index positions inherited carried ts, v.Queued s
  | [], _, _, _, _, _, _, _, _ => by
    rw [traceAll]
    exact List.forall_mem_nil _
  | t :: ts, depth, path, index, positions, inherited, carried, hin, hca => by
    have hws : Queue s.chains (Combinator.downward ++ Combinator.sideways) (inherited ++ carried) :=
      hin.append hca (by decide)
    rw [traceAll, List.forall_mem_append]
    refine ⟨queue_trace hjoined t hws, ?_⟩
    cases hh : s.visit depth (path ++ [index]) positions.head? (inherited ++ carried) t with
    | error e => exact List.forall_mem_nil _
    | ok here =>
      dsimp only
      split
      · exact List.forall_mem_nil _
      obtain ⟨r, hr, hbeside⟩ := exists_trial hh
      refine queue_traceAll hjoined ts hin ?_
      rw [hbeside]
      exact (queued_trial hjoined hws hr).beside
end

end Trace

end Search

/-! ### Tests -/

namespace Search

section Tests

variable (s : Search α) {setting : Setting} {place : Place α} {position : Option Position}
  {ws : List (Waiting α)} {t : Trial α}

/-- What a trial gives after one more step was tested. -/
def testOne (setting : Setting) (place : Place α) (position : Option Position) (t : Trial α)
    (w : Waiting α) : Except MatchError (Trial α) := do
  return record w (← w.step.test setting place position) t

/-- The steps of some that are tested at a node, in order: up to the first that gives no answer,
and up to the one that ends the search. -/
def tested (setting : Setting) (place : Place α) (position : Option Position) :
    List (Waiting α) → Trial α → List (Waiting α)
  | [], _ => []
  | w :: ws, t =>
    if s.firstOnly && t.found then []
    else w :: match w.step.test setting place position with
      | .error _ => []
      | .ok v => tested setting place position ws (record w v t)

/-- Trying steps is testing those that are tested and no others, one after the other. -/
theorem tryAll_eq_foldlM :
    s.tryAll setting place position ws t =
      (s.tested setting place position ws t).foldlM (testOne setting place position) t := by
  induction ws generalizing t with
  | nil => rfl
  | cons w ws ih =>
    rw [tryAll, tested]
    split
    · rfl
    · rw [List.foldlM_cons, testOne]
      cases w.step.test setting place position with
      | error e => rfl
      | ok v => exact ih

private theorem tested_prefix : s.tested setting place position ws t <+: ws := by
  induction ws generalizing t with
  | nil => exact List.prefix_rfl
  | cons w ws ih =>
    rw [tested]
    split
    · exact List.nil_prefix
    · refine List.cons_prefix_cons.2 ⟨rfl, ?_⟩
      cases w.step.test setting place position with
      | error e => exact List.nil_prefix
      | ok v => exact ih

end Tests

end Search

namespace Visit

/-- The steps that are tested at a visit, in order. -/
def tested (s : Search α) (v : Visit α) : List (Waiting α) :=
  s.tested (s.setting v.depth) v.place v.position (v.waiting ++ Waiting.heads s.chains)
    ⟨.none, false, 1⟩

/-- The trial at a visit carries out its tests and no others, one after the other. -/
theorem trial_eq_foldlM (s : Search α) (v : Visit α) :
    v.trial s = (v.tested s).foldlM
      (Search.testOne (s.setting v.depth) v.place v.position) ⟨.none, false, 1⟩ :=
  s.tryAll_eq_foldlM

/-- The tests at a visit are of steps that wait there or of heads, in order. -/
theorem tested_sublist (s : Search α) (v : Visit α) :
    (v.tested s).Sublist (v.waiting ++ Waiting.heads s.chains) :=
  s.tested_prefix.sublist

end Visit

namespace Search

/-- The tests at some visits, each as the numbers of a step and the path of a node. -/
def tests (s : Search α) (vs : List (Visit α)) : List ((Nat × Nat) × Path) :=
  vs.flatMap fun v ↦ (v.tested s).map fun w ↦ (w.number, v.place.path)

variable {s : Search α} {vs : List (Visit α)}

/-- A test is one of the steps of the chains at a node that is visited. -/
theorem tests_subset (hvs : ∀ v ∈ vs, v.Queued s) :
    s.tests vs ⊆ Waiting.numbers s.chains ×ˢ vs.map fun v ↦ v.place.path := by
  intro test htest
  obtain ⟨v, hv, htest⟩ := List.mem_flatMap.1 htest
  obtain ⟨w, hw, rfl⟩ := List.mem_map.1 htest
  have hbelongs := (hvs v hv).belongs w ((v.tested_sublist s).subset hw)
  exact List.mem_product.2 ⟨hbelongs.number_mem, List.mem_map_of_mem hv⟩

/-- Visits of different nodes where no step waits twice make no test twice. -/
theorem nodup_tests (hvs : ∀ v ∈ vs, v.Queued s)
    (hplaces : vs.Pairwise fun u v ↦ u.place.path ≠ v.place.path) : (s.tests vs).Nodup := by
  refine List.nodup_flatMap.2 ⟨fun v hv ↦ ?_, hplaces.imp fun huv test hu hv ↦ ?_⟩
  · have htested := (hvs v hv).nodup_tried.sublist ((v.tested_sublist s).map Waiting.number)
    have hpairs : (((v.tested s).map Waiting.number).map fun n ↦ (n, v.place.path)).Nodup :=
      htested.map fun n m hnm ↦ (Prod.mk.inj hnm).1
    rw [List.map_map] at hpairs
    exact hpairs
  · obtain ⟨w, -, rfl⟩ := List.mem_map.1 hu
    obtain ⟨w', -, hw'⟩ := List.mem_map.1 hv
    exact huv (congrArg Prod.snd hw').symm

/-- No more tests are made than there are pairs of a step and a visit. -/
theorem length_tests_le (hvs : ∀ v ∈ vs, v.Queued s)
    (hplaces : vs.Pairwise fun u v ↦ u.place.path ≠ v.place.path) :
    (s.tests vs).length ≤ (s.chains.map fun c ↦ c.toList.length).sum * vs.length := by
  have hle := (List.subperm_of_subset (nodup_tests hvs hplaces) (tests_subset hvs)).length_le
  rwa [List.length_product, Waiting.length_numbers, List.length_map] at hle

/-! ### Passes -/

variable [Element α]

/-- The visits of a search below a node that other searches have reached at a depth. -/
def traceBelow (s : Search α) (depth : Nat) (place : Place α) : List (Visit α) :=
  match place.tree with
  | .leaf _ => []
  | .parent _ cs =>
    if s.maxDepth ≤ depth then []
    else s.traceAll (depth + 1) place.path 0 (Position.all (cs.map Tree.type)) [] [] cs

/-- A search below a node gives what its visits tell. -/
theorem tells_runBelow {depth : Nat} {place : Place α} {hits : Hits α}
    (h : s.runBelow depth place = .ok hits) : s.Tells (s.traceBelow depth place) hits := by
  obtain ⟨path, tree⟩ := place
  cases tree with
  | leaf a =>
    obtain rfl := Except.ok.inj h
    exact .nil
  | parent a cs =>
    simp only [runBelow] at h
    simp only [traceBelow]
    cases hcs : cs.isEmpty with
    | true =>
      obtain rfl := List.isEmpty_iff.1 hcs
      obtain rfl := Except.ok.inj h
      rw [traceAll, ite_self]
      exact .nil
    | false =>
      rw [hcs, if_neg Bool.false_ne_true] at h
      split at h
      · cases h
      · next hdeep =>
        rw [if_neg hdeep]
        exact tells_visitAll cs h

/-- A pass of a search over some nodes: over all nodes of a tree, or over those below a node. It has
an outcome and makes some visits. -/
inductive Pass (s : Search α) :
    Except MatchError (Hits α) → List (Visit α) → List (Place α) → Prop where
  | whole (root : Tree α) : Pass s (s.run root) (s.trace 0 [] none [] root) root.places
  | below (depth : Nat) (node : Place α) :
    Pass s (s.runBelow depth node) (s.traceBelow depth node)
      (node.tree.placesAt node.path).tail

variable {outcome : Except MatchError (Hits α)}

/-- What a pass gives is told by its visits. -/
theorem Pass.tells {places : List (Place α)} (h : s.Pass outcome vs places) {hits : Hits α}
    (hok : outcome = .ok hits) : s.Tells vs hits := by
  cases h with
  | whole root => exact tells_visit root hok
  | below depth node => exact tells_runBelow hok

/-- A pass visits some of its nodes, each once and in document order. -/
theorem Pass.sublist {places : List (Place α)} (h : s.Pass outcome vs places) :
    (vs.map Visit.place).Sublist places := by
  cases h with
  | whole root =>
    rw [map_place_trace]
    exact sublist_visited root 0 [] none []
  | below depth node =>
    obtain ⟨path, tree⟩ := node
    cases tree with
    | leaf a => exact List.nil_sublist _
    | parent a cs =>
      rw [Tree.placesAt, List.tail_cons, traceBelow]
      dsimp only
      split
      · exact List.nil_sublist _
      · rw [map_place_traceAll]
        exact sublist_visitedAll cs _ path 0 _ [] []

/-- The nodes of a pass are in document order. -/
theorem Pass.ordered {places : List (Place α)} (h : s.Pass outcome vs places) :
    places.Pairwise fun a b ↦ a.path < b.path := by
  cases h with
  | whole root => exact root.ordered_places
  | below depth node => exact (node.tree.ordered_placesAt node.path).sublist (List.tail_sublist _)

/-- No node is visited twice in a pass. -/
theorem Pass.pairwise {places : List (Place α)} (h : s.Pass outcome vs places) :
    vs.Pairwise fun u v ↦ u.place.path ≠ v.place.path := by
  have hordered := h.ordered.sublist h.sublist
  refine (List.pairwise_map.1 hordered).imp ?_
  rintro u v hlt heq
  rw [heq] at hlt
  exact List.lt_irrefl _ hlt

/-- At no visit of a pass a step waits twice, if the heads of chains do not wait. -/
theorem Pass.queued {places : List (Place α)} (h : s.Pass outcome vs places)
    (hjoined : ∀ c ∈ s.chains, c.Joined Step.combinator) : ∀ v ∈ vs, v.Queued s := by
  cases h with
  | whole root => exact queue_trace hjoined root .nil
  | below depth node =>
    unfold traceBelow
    split
    · exact List.forall_mem_nil _
    · split
      · exact List.forall_mem_nil _
      · exact queue_traceAll hjoined _ .nil .nil

end Search

variable [Element α]

/-- The chain of steps of a chain of matchers has one step for each. -/
theorem Matcher.toList_chain (c : Chain (Matcher α)) :
    (Matcher.chain c).toList = c.toList.map Matcher.step := by
  obtain ⟨head, links⟩ := c
  rw [Chain.toList, Chain.toList, List.map_cons, ← steps_eq_map]
  rfl

/-- The steps of some chains are those of their matchers, by the same numbers. -/
theorem Matcher.exists_of_belongs {cs : List (Chain (Matcher α))} {w : Waiting α}
    (h : w.Belongs (Matcher.chains cs)) :
    ∃ c m, cs[w.chain]? = some c ∧ c.toList[w.link]? = some m ∧ m.step = w.step := by
  obtain ⟨chain, hchain, hdrop⟩ := h
  rw [chains_eq_map, List.getElem?_map] at hchain
  obtain ⟨c, hc, rfl⟩ := Option.map_eq_some_iff.1 hchain
  have hstep : (Matcher.chain c).toList[w.link]? = some w.step := by
    rw [← List.head?_drop, hdrop, List.head?_cons]
  rw [toList_chain, List.getElem?_map] at hstep
  obtain ⟨m, hm, hstep⟩ := Option.map_eq_some_iff.1 hstep
  exact ⟨c, m, hc, hm, hstep⟩

/-- At every visit of a search for chains that are joined by combinators, the steps that wait and
the heads behind them are matchers of the chains, none of them twice; nor are the heads alone,
which is what is tried at a node by itself. So no matcher is tested twice at a node, and a pass
makes at most as many tests as there are matchers times nodes. These are the tests that the search
carries out: each trial is made of those at its visit, and all trials together give what the pass
gives. -/
theorem Search.tests_once {alternatives : List (Chain (Matcher α))}
    (hjoined : ∀ c ∈ alternatives, c.Joined Matcher.combinator) {s : Search α}
    (hs : s.chains = Matcher.chains alternatives) {outcome : Except MatchError (Hits α)}
    {vs : List (Visit α)} {places : List (Place α)} (hpass : s.Pass outcome vs places) :
    (∀ v ∈ vs, ((v.waiting ++ Waiting.heads s.chains).map Waiting.number).Nodup ∧
      ∀ w ∈ v.waiting ++ Waiting.heads s.chains, ∃ c m, alternatives[w.chain]? = some c ∧
        c.toList[w.link]? = some m ∧ m.step = w.step) ∧
      ((Waiting.heads s.chains).map Waiting.number).Nodup ∧ (s.tests vs).Nodup ∧
      (s.tests vs).length ≤ (alternatives.map fun c ↦ c.toList.length).sum * places.length ∧
      (∀ v ∈ vs, v.trial s = (v.tested s).foldlM
        (Search.testOne (s.setting v.depth) v.place v.position) ⟨.none, false, 1⟩) ∧
      ∀ hits, outcome = .ok hits → s.Tells vs hits := by
  have hsteps : ∀ c ∈ s.chains, c.Joined Step.combinator := by
    rw [hs]
    exact Matcher.joined_chains hjoined
  have hqueued := hpass.queued hsteps
  refine ⟨fun v hv ↦ ⟨(hqueued v hv).nodup_tried, fun w hw ↦ ?_⟩,
    Waiting.nodup_heads s.chains, nodup_tests hqueued hpass.pairwise, ?_,
    fun v _ ↦ v.trial_eq_foldlM s, fun _ hok ↦ hpass.tells hok⟩
  · have hbelongs := (hqueued v hv).belongs w hw
    rw [hs] at hbelongs
    exact Matcher.exists_of_belongs hbelongs
  · have hvisits : vs.length ≤ places.length := by
      rw [← List.length_map Visit.place]
      exact hpass.sublist.length_le
    have hlengths : (s.chains.map fun c ↦ c.toList.length) =
        alternatives.map fun c ↦ c.toList.length := by
      rw [hs, Matcher.chains_eq_map, List.map_map]
      refine List.map_congr_left fun c _ ↦ ?_
      rw [Function.comp_apply, Matcher.toList_chain, List.length_map]
    calc (s.tests vs).length
        ≤ (s.chains.map fun c ↦ c.toList.length).sum * vs.length :=
          length_tests_le hqueued hpass.pairwise
      _ = (alternatives.map fun c ↦ c.toList.length).sum * vs.length := by rw [hlengths]
      _ ≤ (alternatives.map fun c ↦ c.toList.length).sum * places.length :=
          Nat.mul_le_mul_left _ hvisits

/-- With `a b` in an `a` that holds an `a` that holds a `b`, the link is tried once at the inner
nodes though both of the outer ones lead to it. -/
theorem Search.tests_once_nested :
    let bare : Matcher Content := ⟨none, none, [], [], [], none⟩
    let alternatives : List (Chain (Matcher Content)) := [⟨{ bare with type := some "a" },
      [{ bare with type := some "b", combinator := some .descendant }]⟩]
    let s : Search Content := ⟨Matcher.chains alternatives, false, [[]], 512⟩
    let root := Node.ofChildren "a" [Node.ofChildren "a" [Node.ofType "b"]]
    let tests : List ((Nat × Nat) × Path) :=
      [((0, 0), []), ((0, 1), [0]), ((0, 0), [0]), ((0, 1), [0, 0]), ((0, 0), [0, 0])]
    (∀ c ∈ alternatives, c.Joined Matcher.combinator) ∧
      s.Pass (s.run root) (s.trace 0 [] none [] root) root.places ∧
      s.tests (s.trace 0 [] none [] root) = tests ∧ tests.Nodup ∧
      tests.length ≤ (alternatives.map fun c ↦ c.toList.length).sum * root.places.length := by
  intro bare alternatives s root tests
  have hjoined : ∀ c ∈ alternatives, c.Joined Matcher.combinator := by
    intro c hc
    obtain rfl := List.mem_singleton.1 hc
    exact ⟨rfl, by decide⟩
  have hpass : s.Pass (s.run root) (s.trace 0 [] none [] root) root.places := .whole root
  have htests : s.tests (s.trace 0 [] none [] root) = tests := rfl
  obtain ⟨-, -, hnodup, hlength, -, -⟩ := Search.tests_once hjoined rfl hpass
  rw [htests] at hnodup hlength
  exact ⟨hjoined, hpass, htests, hnodup, hlength⟩

end DocSelect
