import DocSelect.Query.Basic
import DocSelect.Tree.Node
import DocSelect.Proofs.Tree.Order
import DocSelect.Proofs.Query.Room

/-!
# How deep a query goes

A search for all nodes goes below every node that has children, and fails at the first one with
as many ancestors as the limit. Searches within its tests count on from the depth of their node,
so they end nowhere where the search itself does not. Besides, only an identifier or a class
within brackets can fail. Hence a query without these has an answer exactly for the trees that
fit its limit, and the limit does not matter to the answer.
-/

namespace DocSelect

variable {α : Type}

namespace Tree

/-- Whether every node with children has fewer ancestors than a limit. -/
def Fits (limit : Nat) (t : Tree α) : Prop :=
  ∀ p ∈ t.places, p.children ≠ [] → p.path.length < limit

/-- Whether a tree fits a limit if its root has some ancestors itself. -/
def FitsFrom (limit depth : Nat) (t : Tree α) : Prop :=
  ∀ path a cs, t.at? path = some (.parent a cs) → cs ≠ [] → depth + path.length < limit

variable {limit depth : Nat}

/-- A whole tree fits if it does from its root on, which has no ancestors. -/
theorem fits_iff {t : Tree α} : t.Fits limit ↔ t.FitsFrom limit 0 := by
  constructor
  · intro h path a cs hat hcs
    have hlt := h ⟨path, .parent a cs⟩ (mem_places.2 hat)
      (by simpa [Place.children, children?] using hcs)
    rwa [Nat.zero_add]
  · rintro h ⟨path, t⟩ hp hne
    rw [mem_places] at hp
    cases t with
    | leaf a => exact absurd rfl hne
    | parent a cs =>
      have hlt := h path a cs hp (by simpa [Place.children, children?] using hne)
      rwa [Nat.zero_add] at hlt

/-- A leaf has no children. -/
theorem fitsFrom_leaf (a : α) : (leaf a).FitsFrom limit depth := by
  intro path b cs hat
  cases path with
  | nil => cases hat
  | cons i path => cases hat

/-- A parent fits if it is not too deep for its children, and they all fit. -/
theorem fitsFrom_parent {a : α} {cs : List (Tree α)} :
    (parent a cs).FitsFrom limit depth ↔
      (cs ≠ [] → depth < limit) ∧ ∀ c ∈ cs, c.FitsFrom limit (depth + 1) := by
  constructor
  · intro h
    refine ⟨h [] a cs rfl, fun c hc path b ds hat hds ↦ ?_⟩
    obtain ⟨i, hi⟩ := List.getElem?_of_mem hc
    have hlt := h (i :: path) b ds (by rw [at?, hi]; exact hat) hds
    rw [List.length_cons] at hlt
    omega
  · rintro ⟨hroot, hcs⟩ path b ds hat hds
    cases path with
    | nil =>
      obtain ⟨rfl, rfl⟩ := parent.inj (Option.some.inj hat)
      exact hroot hds
    | cons i path =>
      obtain ⟨c, hi, hat⟩ := Option.bind_eq_some_iff.1 hat
      have hlt := hcs c (List.mem_of_getElem? hi) path b ds hat hds
      rw [List.length_cons]
      omega

end Tree

/-- What can fail at and below a node of some depth: a node with children is too deep, or, where
that is possible, brackets ask for an identifier or a class. -/
inductive Obstacle (outer : Prop) (limit depth : Nat) (t : Tree α) : MatchError → Prop where
  | tooDeep : ¬ t.FitsFrom limit depth → Obstacle outer limit depth t (.tooDeep limit)
  | outerPart (part : OuterPart) : outer → Obstacle outer limit depth t (.outerPart part)

open Outcome

section Search

variable {outer : Prop} {limit : Nat}

/-- What fails at and below a child fails at and below its parent. -/
theorem Obstacle.of_children {depth : Nat} {a : α} {cs : List (Tree α)} {e : MatchError}
    (h : ∃ c ∈ cs, Obstacle outer limit (depth + 1) c e) :
    Obstacle outer limit depth (.parent a cs) e := by
  obtain ⟨c, hc, h⟩ := h
  cases h with
  | tooDeep hfits => exact .tooDeep fun h ↦ hfits ((Tree.fitsFrom_parent.1 h).2 c hc)
  | outerPart part h => exact .outerPart part h

/-- A parent at the limit is too deep for its children. -/
theorem Obstacle.of_limit {depth : Nat} {a : α} {cs : List (Tree α)} (hcs : ¬ cs.isEmpty = true)
    (hlimit : limit ≤ depth) : Obstacle outer limit depth (.parent a cs) (.tooDeep limit) := by
  apply Obstacle.tooDeep
  intro h
  have hlt := (Tree.fitsFrom_parent.1 h).1 (by simpa using hcs)
  omega

/-- Whether a step outside of brackets fails only for what is at and below its node, if siblings
are known. -/
def Step.Bounded (outer : Prop) (limit : Nat) (step : Step α) : Prop :=
  ∀ (setting : Setting) place position, setting.maxDepth = limit → setting.detached = false →
    setting.inner = false →
    FailsOnly (Obstacle outer limit setting.depth place.tree) (step.test setting place position)

namespace Search

variable {s : Search α}

/-- Trying bounded steps fails only for what is at and below their node. -/
theorem failsOnly_tryAll {depth : Nat} {place : Place α} {position : Option Position}
    {ws : List (Waiting α)} {t : Trial α} (hws : ∀ w ∈ ws, w.All (Step.Bounded outer s.maxDepth)) :
    FailsOnly (Obstacle outer s.maxDepth depth place.tree)
      (s.tryAll (s.setting depth) place position ws t) := by
  induction ws generalizing t with
  | nil => exact failsOnly_ok t
  | cons w ws ih =>
    obtain ⟨hw, hws⟩ := List.forall_mem_cons.1 hws
    rw [tryAll]
    split
    · exact failsOnly_ok t
    · have hstep := hw w.step List.mem_cons_self (s.setting depth) place position rfl rfl rfl
      exact hstep.bind fun v _ ↦ ih hws

/-- A trial of bounded steps fails only for what is at and below its node. -/
theorem failsOnly_trial {depth : Nat} {place : Place α} {position : Option Position}
    {ws : List (Waiting α)}
    (hchains : ∀ c ∈ s.chains, ∀ step ∈ c.toList, step.Bounded outer s.maxDepth)
    (hws : ∀ w ∈ ws, w.All (Step.Bounded outer s.maxDepth)) :
    FailsOnly (Obstacle outer s.maxDepth depth place.tree)
      (s.trial depth place position ws) :=
  failsOnly_tryAll (Waiting.all_tried hchains hws)

/-- A full search is never over early. -/
theorem isOver_full (hs : s.firstOnly = false) (found : List (Place α)) :
    s.isOver found = false := by
  rw [isOver, hs, Bool.false_and]

variable [Element α]

mutual
/-- A search of a subtree fails only for what is in it. -/
theorem failsOnly_visit
    (hchains : ∀ c ∈ s.chains, ∀ step ∈ c.toList, step.Bounded outer s.maxDepth) :
    (t : Tree α) → {depth : Nat} → {path : Path} → {position : Option Position} →
    {ws : List (Waiting α)} → (∀ w ∈ ws, w.All (Step.Bounded outer s.maxDepth)) →
    FailsOnly (Obstacle outer s.maxDepth depth t) (s.visit depth path position ws t)
  | .leaf a, depth, path, position, ws, hws => by
    rw [visit]
    exact FailsOnly.bind (failsOnly_trial hchains hws) fun t _ ↦ failsOnly_ok _
  | .parent a cs, depth, path, position, ws, hws => by
    rw [visit]
    refine FailsOnly.bind (failsOnly_trial hchains hws) fun t ht ↦ ?_
    dsimp only
    -- A search that is over does not fail, so what has been found does not matter.
    generalize (if t.found then [Place.mk path (.parent a cs)] else []) = here
    split
    · exact failsOnly_ok _
    · split
      · exact failsOnly_ok _
      · next hcs =>
        split
        · next hlimit => exact failsOnly_error (Obstacle.of_limit hcs hlimit)
        · have hpending := Pending.All.trial hchains hws ht
          refine FailsOnly.bind ?_ fun below _ ↦ failsOnly_ok _
          exact FailsOnly.mono (failsOnly_visitAll hchains cs hpending.below (by simp))
            fun _ ↦ Obstacle.of_children

/-- A search of siblings fails only for what is in one of them. -/
theorem failsOnly_visitAll
    (hchains : ∀ c ∈ s.chains, ∀ step ∈ c.toList, step.Bounded outer s.maxDepth) :
    (ts : List (Tree α)) → {depth index : Nat} → {path : Path} → {positions : List Position} →
    {inherited carried : List (Waiting α)} →
    (∀ w ∈ inherited, w.All (Step.Bounded outer s.maxDepth)) →
    (∀ w ∈ carried, w.All (Step.Bounded outer s.maxDepth)) →
    FailsOnly (fun e ↦ ∃ t ∈ ts, Obstacle outer s.maxDepth depth t e)
      (s.visitAll depth path index positions inherited carried ts)
  | [], _, _, _, _, _, _, _, _ => failsOnly_ok _
  | t :: ts, depth, index, path, positions, inherited, carried, hin, hca => by
    have hws := List.forall_mem_append.2 ⟨hin, hca⟩
    rw [visitAll]
    apply FailsOnly.bind
    · exact (failsOnly_visit hchains t hws).mono fun e he ↦ ⟨t, List.mem_cons_self, he⟩
    · intro here hh
      split
      · exact failsOnly_ok _
      · refine FailsOnly.bind ?_ fun behind _ ↦ failsOnly_ok _
        refine (failsOnly_visitAll hchains ts hin (all_beside_visit hchains hws hh)).mono ?_
        rintro e ⟨t', ht', he⟩
        exact ⟨t', List.mem_cons_of_mem t ht', he⟩
end

/-- A search below a node fails only for what is at and below it. -/
theorem failsOnly_runBelow
    (hchains : ∀ c ∈ s.chains, ∀ step ∈ c.toList, step.Bounded outer s.maxDepth) (depth : Nat)
    (place : Place α) :
    FailsOnly (Obstacle outer s.maxDepth depth place.tree) (s.runBelow depth place) := by
  unfold runBelow
  split
  · exact failsOnly_ok _
  · next a cs ht =>
    rw [ht]
    split
    · exact failsOnly_ok _
    · next hcs =>
      split
      · next hlimit => exact failsOnly_error (Obstacle.of_limit hcs hlimit)
      · exact FailsOnly.mono (failsOnly_visitAll hchains cs (by simp) (by simp))
          fun _ ↦ Obstacle.of_children

mutual
/-- A full search of a subtree has an answer only if the subtree fits. -/
theorem fitsFrom_visit (hs : s.firstOnly = false) : (t : Tree α) → {depth : Nat} → {path : Path} →
    {position : Option Position} → {ws : List (Waiting α)} → {hits : Hits α} →
    s.visit depth path position ws t = .ok hits → t.FitsFrom s.maxDepth depth
  | .leaf a, _, _, _, _, _, _ => Tree.fitsFrom_leaf a
  | .parent a cs, depth, path, position, ws, hits, h => by
    rw [visit] at h
    obtain ⟨t, _, h⟩ := bind_eq_ok.1 h
    dsimp only at h
    rw [isOver_full hs, if_neg Bool.false_ne_true] at h
    apply Tree.fitsFrom_parent.2
    split at h
    · next hnil =>
      rw [List.isEmpty_iff.1 hnil]
      simp
    · split at h
      · cases h
      · next hlimit =>
        obtain ⟨below, hb, _⟩ := bind_eq_ok.1 h
        exact ⟨fun _ ↦ Nat.lt_of_not_le hlimit, fitsFrom_visitAll hs cs hb⟩

/-- A full search of siblings has an answer only if they all fit. -/
theorem fitsFrom_visitAll (hs : s.firstOnly = false) : (ts : List (Tree α)) → {depth index : Nat} →
    {path : Path} → {positions : List Position} → {inherited carried : List (Waiting α)} →
    {hits : Hits α} → s.visitAll depth path index positions inherited carried ts = .ok hits →
    ∀ t ∈ ts, t.FitsFrom s.maxDepth depth
  | [], _, _, _, _, _, _, _, _ => by simp
  | t :: ts, _, _, _, _, _, _, _, h => by
    rw [visitAll] at h
    obtain ⟨here, hh, h⟩ := bind_eq_ok.1 h
    rw [isOver_full hs, if_neg Bool.false_ne_true] at h
    obtain ⟨behind, hb, _⟩ := bind_eq_ok.1 h
    exact List.forall_mem_cons.2 ⟨fitsFrom_visit hs t hh, fitsFrom_visitAll hs ts hb⟩
end

end Search

end Search

/-- A compound that asks for no identifier and no class. -/
def Matcher.Plain (m : Matcher α) : Prop := m.id = none ∧ m.classes = []

mutual
/-- Whether some alternatives are safe. -/
def Matcher.SafeChains : List (Chain (Matcher α)) → Prop
  | [] => True
  | c :: cs => Matcher.SafeChain c ∧ Matcher.SafeChains cs

/-- Whether all matchers of a chain are safe. -/
def Matcher.SafeChain : Chain (Matcher α) → Prop
  | ⟨head, links⟩ => head.Safe ∧ Matcher.SafeSteps links

/-- Whether some matchers are safe. -/
def Matcher.SafeSteps : List (Matcher α) → Prop
  | [] => True
  | m :: ms => m.Safe ∧ Matcher.SafeSteps ms

/-- Whether all pseudo-classes of a matcher are safe. -/
def Matcher.Safe : Matcher α → Prop
  | ⟨_, _, _, _, tests, _⟩ => Test.AllSafe tests

/-- Whether some pseudo-classes are safe. -/
def Test.AllSafe : List (Test α) → Prop
  | [] => True
  | t :: ts => t.Safe ∧ Test.AllSafe ts

/-- Whether no identifier and no class stands directly within `:not`, `:matches` or `:any`.
Alternatives that are chains are never asked there, so they do not count. -/
def Test.Safe : Test α → Prop
  | .matches alternatives | .not alternatives =>
    (∀ c ∈ alternatives, c.links = [] → c.head.Plain) ∧ Matcher.SafeChains alternatives
  | .has alternatives => Matcher.SafeChains alternatives
  | .structural _ | .empty | .root | .scope | .custom _ _ => True
end

section Tests

variable {outer : Prop} {limit : Nat}

/-- Where siblings are known a structural pseudo-class has a verdict. -/
theorem SiblingTest.failsOnly_verdict {P : MatchError → Prop} {setting : Setting} (t : SiblingTest)
    (position : Option Position) (h : setting.detached = false) :
    FailsOnly P (t.verdict setting position) := by
  unfold SiblingTest.verdict
  rw [h]
  cases position with
  | some p => exact failsOnly_ok _
  | none => exact failsOnly_ok _

/-- A plain matcher has no part that must not stand within brackets. -/
theorem Matcher.Plain.outerPart? {type : Option String} {id : Option String}
    {classes : List String} {attributes : List AttributeMatcher} {tests ts : List (Test α)}
    {combinator c : Option Combinator}
    (h : Matcher.Plain ⟨type, id, classes, attributes, tests, combinator⟩) :
    Matcher.outerPart? (⟨type, id, classes, attributes, ts, c⟩ : Matcher α) = none := by
  obtain ⟨rfl, rfl⟩ := h
  rfl

variable [Element α]

/-- A matcher with no part that must not stand where it does asks for a node's contents and then
for its pseudo-classes. -/
theorem Matcher.test_step {m : Matcher α} {setting : Setting} {place : Place α}
    {position : Option Position} (h : setting.inner = true → m.Plain) :
    m.step.test setting place position =
      if m.holdsAlone place.tree.content then Test.all m.tests setting place position
      else .ok (.of false) := by
  obtain ⟨type, id, classes, attributes, tests, combinator⟩ := m
  rw [Matcher.step]
  dsimp only
  split
  · next part hpart =>
    split at hpart
    · next hinner =>
      rw [(h hinner).outerPart?] at hpart
      cases hpart
    · cases hpart
  · rfl

mutual
/-- The chains of safe alternatives are bounded. -/
theorem Matcher.bounded_chains : (cs : List (Chain (Matcher α))) →
    (outer ∨ Matcher.SafeChains cs) →
    ∀ c ∈ Matcher.chains cs, ∀ step ∈ c.toList, step.Bounded outer limit
  | [], _ => by
    rw [Matcher.chains]
    simp
  | c :: cs, h => by
    rw [Matcher.chains]
    exact List.forall_mem_cons.2 ⟨Matcher.bounded_chain c (h.imp_right And.left),
      Matcher.bounded_chains cs (h.imp_right And.right)⟩

/-- The steps of a safe chain are bounded. -/
theorem Matcher.bounded_chain : (c : Chain (Matcher α)) → (outer ∨ Matcher.SafeChain c) →
    ∀ step ∈ (Matcher.chain c).toList, step.Bounded outer limit
  | ⟨head, links⟩, h => by
    rw [Matcher.chain]
    refine List.forall_mem_cons.2 ⟨fun setting place position hlimit hd hinner ↦ ?_,
      Matcher.bounded_steps links (h.imp_right And.right)⟩
    exact Matcher.failsOnly_step head (h.imp_right And.left) hlimit hd (by simp [hinner])

/-- The steps of safe matchers are bounded. -/
theorem Matcher.bounded_steps : (ms : List (Matcher α)) → (outer ∨ Matcher.SafeSteps ms) →
    ∀ step ∈ Matcher.steps ms, step.Bounded outer limit
  | [], _ => by
    rw [Matcher.steps]
    simp
  | m :: ms, h => by
    rw [Matcher.steps]
    refine List.forall_mem_cons.2 ⟨fun setting place position hlimit hd hinner ↦ ?_,
      Matcher.bounded_steps ms (h.imp_right And.right)⟩
    exact Matcher.failsOnly_step m (h.imp_right And.left) hlimit hd (by simp [hinner])

/-- Safe alternatives within brackets fail only for what is at and below their node. -/
theorem Matcher.failsOnly_anyAlone : (cs : List (Chain (Matcher α))) → {setting : Setting} →
    {place : Place α} → {position : Option Position} →
    (outer ∨ (∀ c ∈ cs, c.links = [] → c.head.Plain) ∧ Matcher.SafeChains cs) →
    setting.maxDepth = limit → setting.detached = false →
    FailsOnly (Obstacle outer limit setting.depth place.tree)
      (anyAlone setting place position (Matcher.chains cs))
  | [], _, _, _, _, _, _ => by
    rw [Matcher.chains]
    exact failsOnly_ok _
  | ⟨head, links⟩ :: cs, setting, place, position, h, hlimit, hd => by
    have hrest : FailsOnly (Obstacle outer limit setting.depth place.tree)
        (anyAlone setting place position (Matcher.chains cs)) := by
      apply Matcher.failsOnly_anyAlone cs _ hlimit hd
      exact h.imp_right fun ⟨hplain, hsafe⟩ ↦ ⟨(List.forall_mem_cons.1 hplain).2, hsafe.2⟩
    rw [Matcher.chains, Matcher.chain, anyAlone]
    cases links with
    | cons m ms =>
      rw [Matcher.steps]
      exact hrest
    | nil =>
      rw [Matcher.steps]
      apply FailsOnly.bind
      · apply Matcher.failsOnly_step head (h.imp_right fun ⟨_, hsafe⟩ ↦ hsafe.1.1) hlimit hd
        exact fun _ ↦ h.imp_right fun ⟨hplain, _⟩ ↦ hplain ⟨head, []⟩ List.mem_cons_self rfl
      · intro v _
        split
        · exact failsOnly_ok _
        · exact hrest.bind fun w _ ↦ failsOnly_ok _

/-- A safe matcher fails only for what is at and below its node. Directly within brackets it has
to be plain. -/
theorem Matcher.failsOnly_step : (m : Matcher α) → {setting : Setting} → {place : Place α} →
    {position : Option Position} → (outer ∨ m.Safe) → setting.maxDepth = limit →
    setting.detached = false → (setting.inner = true → outer ∨ m.Plain) →
    FailsOnly (Obstacle outer limit setting.depth place.tree) (m.step.test setting place position)
  | ⟨type, id, classes, attributes, tests, combinator⟩, setting, place, position, h, hlimit, hd,
      hinner => by
    rw [Matcher.step]
    dsimp only
    split
    · next part hpart =>
      split at hpart
      · next hin =>
        rcases hinner hin with houter | hplain
        · exact failsOnly_error (.outerPart part houter)
        · rw [hplain.outerPart?] at hpart
          cases hpart
      · cases hpart
    · split
      · exact Test.failsOnly_all tests h hlimit hd
      · exact failsOnly_ok _

/-- Safe pseudo-classes in order fail only for what is at and below their node. -/
theorem Test.failsOnly_all : (ts : List (Test α)) → {setting : Setting} → {place : Place α} →
    {position : Option Position} → (outer ∨ Test.AllSafe ts) → setting.maxDepth = limit →
    setting.detached = false →
    FailsOnly (Obstacle outer limit setting.depth place.tree) (Test.all ts setting place position)
  | [], _, _, _, _, _, _ => failsOnly_ok _
  | t :: ts, setting, place, position, h, hlimit, hd => by
    rw [Test.all]
    refine (Test.failsOnly_verdict t (h.imp_right And.left) hlimit hd).bind fun v _ ↦ ?_
    split
    · refine (Test.failsOnly_all ts (h.imp_right And.right) hlimit hd).bind fun w _ ↦ ?_
      exact failsOnly_ok _
    · exact failsOnly_ok _

/-- A safe pseudo-class fails only for what is at and below its node. -/
theorem Test.failsOnly_verdict : (t : Test α) → {setting : Setting} → {place : Place α} →
    {position : Option Position} → (outer ∨ t.Safe) → setting.maxDepth = limit →
    setting.detached = false →
    FailsOnly (Obstacle outer limit setting.depth place.tree) (t.verdict setting place position)
  | .structural t, _, _, position, _, _, hd => t.failsOnly_verdict position hd
  | .empty, _, _, _, _, _, _ => failsOnly_ok _
  | .root, _, _, _, _, _, _ => failsOnly_ok _
  | .scope, _, _, _, _, _, _ => failsOnly_ok _
  | .matches alternatives, setting, place, position, h, hlimit, hd => by
    have hwithin : FailsOnly (Obstacle outer limit (setting.within place).depth place.tree)
        (anyAlone (setting.within place) place position (Matcher.chains alternatives)) :=
      Matcher.failsOnly_anyAlone alternatives h hlimit hd
    rw [Test.verdict]
    exact hwithin
  | .not alternatives, setting, place, position, h, hlimit, hd => by
    have hwithin : FailsOnly (Obstacle outer limit (setting.within place).depth place.tree)
        (anyAlone (setting.within place) place position (Matcher.chains alternatives)) :=
      Matcher.failsOnly_anyAlone alternatives h hlimit hd
    rw [Test.verdict]
    exact FailsOnly.bind hwithin fun v _ ↦ failsOnly_ok _
  | .has alternatives, setting, place, _, h, hlimit, _ => by
    rw [Test.verdict]
    have hchains := Matcher.bounded_chains alternatives h
    -- The search below counts on from the depth of the setting, under the same limit.
    rw [← hlimit] at hchains ⊢
    refine FailsOnly.bind ?_ fun hits _ ↦ failsOnly_ok _
    exact Search.failsOnly_runBelow hchains setting.depth place
  | .custom _ _, _, _, _, _, _, _ => failsOnly_ok _
end

end Tests

section Resolve

variable {o : QueryOptions α} {maxDepth : Nat}

/-- What attributes are resolved to does not depend on the limit. -/
theorem AttributeTest.resolveAll_withMaxDepth (ts : List AttributeTest) :
    resolveAll (o.withMaxDepth maxDepth) ts = resolveAll o ts := by
  induction ts with
  | nil => rfl
  | cons t ts ih =>
    rw [resolveAll, resolveAll, ih]
    rfl

mutual
/-- What a selector is resolved to does not depend on the limit. -/
theorem Selector.resolve_withMaxDepth : (s : Selector) →
    s.resolve (o.withMaxDepth maxDepth) = s.resolve o
  | .chain c => by
    rw [Selector.resolve, Selector.resolve, Selector.resolveChain_withMaxDepth c]
  | .list cs => by
    rw [Selector.resolve, Selector.resolve, Selector.resolveChains_withMaxDepth cs]

/-- What alternatives are resolved to does not depend on the limit. -/
theorem Selector.resolveChains_withMaxDepth : (cs : List (Chain Compound)) →
    Selector.resolveChains (o.withMaxDepth maxDepth) cs = Selector.resolveChains o cs
  | [] => rfl
  | c :: cs => by
    rw [Selector.resolveChains, Selector.resolveChains, Selector.resolveChain_withMaxDepth c,
      Selector.resolveChains_withMaxDepth cs]

/-- What a chain is resolved to does not depend on the limit. -/
theorem Selector.resolveChain_withMaxDepth : (c : Chain Compound) →
    Selector.resolveChain (o.withMaxDepth maxDepth) c = Selector.resolveChain o c
  | ⟨head, links⟩ => by
    rw [Selector.resolveChain, Selector.resolveChain, Compound.resolve_withMaxDepth head,
      Selector.resolveLinks_withMaxDepth links]

/-- What links are resolved to does not depend on the limit. -/
theorem Selector.resolveLinks_withMaxDepth : (cs : List Compound) →
    Selector.resolveLinks (o.withMaxDepth maxDepth) cs = Selector.resolveLinks o cs
  | [] => rfl
  | c :: cs => by
    rw [Selector.resolveLinks, Selector.resolveLinks, Compound.resolve_withMaxDepth c,
      Selector.resolveLinks_withMaxDepth cs]

/-- What a compound is resolved to does not depend on the limit. -/
theorem Compound.resolve_withMaxDepth : (c : Compound) →
    c.resolve (o.withMaxDepth maxDepth) = c.resolve o
  | ⟨type, id, classes, attributes, pseudos, combinator⟩ => by
    unfold Compound.resolve
    rw [AttributeTest.resolveAll_withMaxDepth, PseudoClass.resolveAll_withMaxDepth pseudos]

/-- What pseudo-classes are resolved to does not depend on the limit. -/
theorem PseudoClass.resolveAll_withMaxDepth : (ps : List PseudoClass) →
    PseudoClass.resolveAll (o.withMaxDepth maxDepth) ps = PseudoClass.resolveAll o ps
  | [] => rfl
  | p :: ps => by
    rw [PseudoClass.resolveAll, PseudoClass.resolveAll, PseudoClass.resolve_withMaxDepth p,
      PseudoClass.resolveAll_withMaxDepth ps]

/-- What a pseudo-class is resolved to does not depend on the limit. -/
theorem PseudoClass.resolve_withMaxDepth : (p : PseudoClass) →
    p.resolve (o.withMaxDepth maxDepth) = p.resolve o
  | ⟨name, .selector s⟩ => by
    rw [PseudoClass.resolve, PseudoClass.resolve]
    dsimp only
    rw [Selector.resolve_withMaxDepth s]
    rfl
  | ⟨name, .none⟩ | ⟨name, .text _⟩ | ⟨name, .formula _⟩ | ⟨name, .variable _⟩ => by
    rw [PseudoClass.resolve, PseudoClass.resolve]
    rfl
end

end Resolve

namespace Query

/-- Whether no identifier and no class stands directly within `:not`, `:matches` or `:any`, at
any depth of brackets. -/
def Safe (q : Query α) : Prop := Matcher.SafeChains q.alternatives

/-- The query that is the same but for how deep it may go. -/
def limited (q : Query α) (maxDepth : Nat) : Query α := { q with maxDepth := maxDepth }

/-- A selector made ready with another limit is the same query but for how deep it may go. -/
theorem ofSelector_withMaxDepth (o : QueryOptions α) (s : Selector) (maxDepth : Nat) :
    ofSelector (o.withMaxDepth maxDepth) s = (limited · maxDepth) <$> ofSelector o s := by
  rw [ofSelector, ofSelector, Selector.resolve_withMaxDepth]
  cases s.resolve o with
  | ok alternatives => rfl
  | error e => rfl

variable [Element α] {q : Query α} {root : Tree α}

/-- A query fails only if its tree is too deep, or if it is not safe. -/
theorem failsOnly_findAll :
    FailsOnly (Obstacle (¬ q.Safe) q.maxDepth 0 root) (q.findAll root) := by
  have hchains : ∀ c ∈ (q.search false root).chains, ∀ step ∈ c.toList,
      step.Bounded (¬ q.Safe) (q.search false root).maxDepth :=
    Matcher.bounded_chains q.alternatives (Classical.em q.Safe).symm
  have hrun : FailsOnly (Obstacle (¬ q.Safe) q.maxDepth 0 root) ((q.search false root).run root) :=
    Search.failsOnly_visit hchains root (by simp)
  exact hrun.bind fun hits _ ↦ failsOnly_ok _

/-- A query has an answer only for trees that fit its limit. -/
theorem fits_of_findAll {found : List (Place α)} (h : q.findAll root = .ok found) :
    root.Fits q.maxDepth := by
  obtain ⟨hits, hr, _⟩ := bind_eq_ok.1 h
  exact Tree.fits_iff.2 (Search.fitsFrom_visit (s := q.search false root) rfl root hr)

/-- A higher limit leaves the answer as it is. -/
theorem findAll_limited {maxDepth : Nat} {found : List (Place α)} (hle : q.maxDepth ≤ maxDepth)
    (h : q.findAll root = .ok found) : (q.limited maxDepth).findAll root = .ok found := by
  obtain ⟨hits, hr, h⟩ := bind_eq_ok.1 h
  have hchains : ∀ c ∈ (q.search false root).chains, c.Steady :=
    Matcher.steady_chains q.alternatives
  have hroom : (q.search false root).maxDepth + 0 ≤ maxDepth + 0 := hle
  exact bind_eq_ok.2 ⟨hits, Search.visit_limited hchains root hroom (by simp) hr, h⟩

/-- A query has an answer for a tree that fits, unless it is not safe. -/
theorem findAll_of_fits (hfits : root.Fits q.maxDepth) :
    (∃ found, q.findAll root = .ok found) ∨
      ¬ q.Safe ∧ ∃ part, q.findAll root = .error (.outerPart part) := by
  cases h : q.findAll root with
  | ok found => exact .inl ⟨found, rfl⟩
  | error e =>
    cases failsOnly_findAll e h with
    | tooDeep hdeep => exact absurd (Tree.fits_iff.1 hfits) hdeep
    | outerPart part hsafe => exact .inr ⟨hsafe, part, rfl⟩

/-- A query fails for a tree that does not fit, because of its depth unless it is not safe. -/
theorem findAll_of_not_fits (hfits : ¬ root.Fits q.maxDepth) :
    q.findAll root = .error (.tooDeep q.maxDepth) ∨
      ¬ q.Safe ∧ ∃ part, q.findAll root = .error (.outerPart part) := by
  cases h : q.findAll root with
  | ok found => exact absurd (fits_of_findAll h) hfits
  | error e =>
    cases failsOnly_findAll e h with
    | tooDeep _ => exact .inl rfl
    | outerPart part hsafe => exact .inr ⟨hsafe, part, rfl⟩

/-- Limits that a tree fits give a safe query the same answer. -/
theorem findAll_limited_limited {m n : Nat} (hq : q.Safe) (hm : root.Fits m) (hn : root.Fits n) :
    ∃ found, (q.limited m).findAll root = .ok found ∧ (q.limited n).findAll root = .ok found := by
  wlog hle : m ≤ n generalizing m n
  · obtain ⟨found, hn, hm⟩ := this hn hm (Nat.le_of_not_le hle)
    exact ⟨found, hm, hn⟩
  · rcases findAll_of_fits (q := q.limited m) hm with ⟨found, h⟩ | ⟨hq', _⟩
    · exact ⟨found, h, findAll_limited (q := q.limited m) hle h⟩
    · exact absurd hq hq'

/-- A safe query has an answer exactly for the trees that fit its limit, fails with the limit for
all others, and has the same answer under every limit that the tree fits. A query that is not
safe may besides fail for an identifier or a class within brackets, and for nothing else. Another
limit in the options of a selector makes the query with that limit. -/
theorem findAll_by_limit (q : Query α) (root : Tree α) :
    (q.Safe →
      (root.Fits q.maxDepth → ∃ found, q.findAll root = .ok found) ∧
      (¬ root.Fits q.maxDepth → q.findAll root = .error (.tooDeep q.maxDepth)) ∧
      ∀ m n, root.Fits m → root.Fits n → ∃ found,
        (q.limited m).findAll root = .ok found ∧ (q.limited n).findAll root = .ok found) ∧
    (¬ q.Safe →
      (root.Fits q.maxDepth →
        (∃ found, q.findAll root = .ok found) ∨
          ∃ part, q.findAll root = .error (.outerPart part)) ∧
      (¬ root.Fits q.maxDepth →
        q.findAll root = .error (.tooDeep q.maxDepth) ∨
          ∃ part, q.findAll root = .error (.outerPart part))) ∧
    ∀ o s, ofSelector o s = .ok q →
      ∀ maxDepth, ofSelector (o.withMaxDepth maxDepth) s = .ok (q.limited maxDepth) := by
  refine ⟨fun hq ↦ ⟨fun h ↦ ?_, fun h ↦ ?_, fun m n hm hn ↦ ?_⟩,
    fun _ ↦ ⟨fun h ↦ ?_, fun h ↦ ?_⟩, fun o s h maxDepth ↦ ?_⟩
  · exact (findAll_of_fits h).resolve_right fun hq' ↦ hq'.1 hq
  · exact (findAll_of_not_fits h).resolve_right fun hq' ↦ hq'.1 hq
  · exact findAll_limited_limited hq hm hn
  · exact (findAll_of_fits h).imp_right And.right
  · exact (findAll_of_not_fits h).imp_right And.right
  · rw [ofSelector_withMaxDepth, h]
    rfl

/-- Within two brackets an identifier is no problem: `:not(:has(#x))` is safe, has an answer for a
tree of two levels under the limit of one, and none for a tree of three. -/
theorem findAll_not_has_id :
    let id : Matcher Content := ⟨none, some "x", [], [], [], none⟩
    let has : Matcher Content := ⟨none, none, [], [], [.has [⟨id, []⟩]], none⟩
    let q : Query Content :=
      ⟨.empty, [⟨⟨none, none, [], [], [.not [⟨has, []⟩]], none⟩, []⟩], 1⟩
    let two := Node.ofChildren "a" [Node.ofText "b" ""]
    let three := Node.ofChildren "a" [two]
    q.Safe ∧ two.Fits 1 ∧ two.Fits 7 ∧ ¬ three.Fits 1 ∧ (∃ found, q.findAll two = .ok found) ∧
      q.findAll three = .error (.tooDeep 1) ∧
      ∃ found, (q.limited 1).findAll two = .ok found ∧ (q.limited 7).findAll two = .ok found := by
  intro id has q two three
  have hq : q.Safe := by
    simp [q, has, id, Safe, Matcher.SafeChains, Matcher.SafeChain, Matcher.SafeSteps, Matcher.Safe,
      Test.AllSafe, Test.Safe, Matcher.Plain]
  have hfits (n : Nat) : two.Fits (n + 1) := by
    simp [two, Tree.fits_iff, Node.ofChildren, Node.ofText, Tree.fitsFrom_parent,
      Tree.fitsFrom_leaf]
  have hdeep : ¬ three.Fits 1 := by
    simp [three, two, Tree.fits_iff, Node.ofChildren, Tree.fitsFrom_parent]
  have htwo := (findAll_by_limit q two).1 hq
  exact ⟨hq, hfits 0, hfits 6, hdeep, htwo.1 (hfits 0), ((findAll_by_limit q three).1 hq).2.1 hdeep,
    htwo.2.2 1 7 (hfits 0) (hfits 6)⟩

end Query

end DocSelect
