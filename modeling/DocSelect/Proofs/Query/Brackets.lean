import DocSelect.Tree.Node
import DocSelect.Proofs.Query.Depth
import DocSelect.Proofs.Query.FindAll
import DocSelect.Proofs.Query.Resolve
import DocSelect.Proofs.Selector.Rephrasing

/-!
# What brackets mean

The answers of tests, errors and visits included, can be negated and joined in order, the second
one asked for only where the first one leaves it open. So joined they obey the laws of a Boolean
algebra that do not exchange their parts. `:not`, `:matches` and `:any` are made of these
operations, and brackets at the same node change nothing but what `:scope` stands for and which
parts are allowed. Hence a selector that is rephrased means the same steps, and finds the same.
-/

namespace DocSelect

variable {α : Type}

/-- What asking a test gives: a verdict, or why there is none. -/
abbrev Answer := Except MatchError Verdict

namespace Answer

/-- The contrary answer. -/
def not (x : Answer) : Answer := do
  let v ← x
  return ⟨!v.holds, v.visits⟩

/-- Whether both hold, the second one asked for only if the first one does. -/
def and (x y : Answer) : Answer := do
  let v ← x
  if v.holds then
    let w ← y
    return ⟨w.holds, v.visits + w.visits⟩
  else return v

/-- Whether one of two holds, the second one asked for only if the first one does not. -/
def or (x y : Answer) : Answer := do
  let v ← x
  if v.holds then return v
  else
    let w ← y
    return ⟨w.holds, v.visits + w.visits⟩

/-- The opposite of the opposite is the answer itself. -/
theorem not_not (x : Answer) : x.not.not = x := by
  rcases x with e | ⟨holds, visits⟩
  · rfl
  · cases holds <;> rfl

private theorem true_and (x : Answer) : and (.ok (.of true)) x = x := by
  rcases x with e | v
  · rfl
  · simp only [and, Verdict.of, Outcome.ok_bind, if_true, Nat.zero_add]
    rfl

private theorem and_true (x : Answer) : x.and (.ok (.of true)) = x := by
  rcases x with e | ⟨holds, visits⟩
  · rfl
  · cases holds <;> rfl

private theorem and_assoc (x y z : Answer) : (x.and y).and z = x.and (y.and z) := by
  rcases x with e | ⟨holds, visits⟩
  · rfl
  cases holds with
  | false => rfl
  | true =>
    rcases y with e | ⟨holds', visits'⟩
    · rfl
    cases holds' with
    | false => rfl
    | true =>
      rcases z with e | w
      · rfl
      · simp only [and, Outcome.ok_bind, if_true, pure, Except.pure, Nat.add_assoc]

private theorem false_or (x : Answer) : or (.ok (.of false)) x = x := by
  rcases x with e | v
  · rfl
  · simp only [or, Verdict.of, Outcome.ok_bind, Bool.false_eq_true, if_false, Nat.zero_add]
    rfl

private theorem or_false (x : Answer) : x.or (.ok (.of false)) = x := by
  rcases x with e | ⟨holds, visits⟩
  · rfl
  · cases holds <;> rfl

private theorem not_or (x y : Answer) : (x.or y).not = x.not.and y.not := by
  rcases x with e | ⟨holds, visits⟩
  · rfl
  cases holds with
  | true => rfl
  | false =>
    rcases y with e | w
    · rfl
    · rfl

private theorem or_assoc (x y z : Answer) : (x.or y).or z = x.or (y.or z) := by
  rw [← not_not ((x.or y).or z), not_or, not_or, and_assoc, ← not_or, ← not_or, not_not]

end Answer

section Alone

variable {setting : Setting} {place : Place α} {position : Option Position}

/-- Alternatives at a node are asked one after the other. -/
theorem anyAlone_append (cs ds : List (Chain (Step α))) :
    anyAlone setting place position (cs ++ ds) =
      Answer.or (anyAlone setting place position cs) (anyAlone setting place position ds) := by
  induction cs with
  | nil => exact (Answer.false_or _).symm
  | cons c cs ih =>
    rw [List.cons_append, anyAlone, anyAlone, ih]
    split
    · exact (Answer.or_assoc (c.head.test setting place position) _ _).symm
    · rfl

/-- A single alternative that is no chain answers as its head does. -/
theorem anyAlone_singleton (step : Step α) :
    anyAlone setting place position [⟨step, []⟩] = step.test setting place position :=
  Answer.or_false _

/-- Steps are the same if the same combinator leads to them and they test alike. -/
theorem Step.eq_of_test {s t : Step α} (hcombinator : s.combinator = t.combinator)
    (htest : s.test = t.test) : s = t := by
  cases s
  cases t
  obtain rfl := hcombinator
  obtain rfl := htest
  rfl

end Alone

/-- The chains of steps that some alternatives mean have the step of each of their matchers. -/
theorem Matcher.chains_eq [Element α] :
    (Matcher.chains : List (Chain (Matcher α)) → List (Chain (Step α))) =
      List.map (Chain.map Matcher.step) := by
  funext cs
  rw [chains_eq_map]
  refine List.map_congr_left fun c _ ↦ ?_
  obtain ⟨head, links⟩ := c
  rw [chain, steps_eq_map]
  rfl

/-- The matcher that asks for nothing but a pseudo-class. -/
def Matcher.ofTest (t : Test α) (combinator : Option Combinator) : Matcher α :=
  ⟨none, none, [], [], [t], combinator⟩

/-- There are three pseudo-classes that take a selector, one of them under two names. -/
theorem selectorTest?_eq_some {name : String} {test : List (Chain (Matcher α)) → Test α} :
    selectorTest? name = some test ↔
      (name = "any" ∨ name = "matches") ∧ test = .matches ∨ name = "not" ∧ test = .not ∨
        name = "has" ∧ test = .has := by
  constructor
  · intro h
    unfold selectorTest? at h
    split at h <;> simp_all
  · rintro (⟨rfl | rfl, rfl⟩ | ⟨rfl, rfl⟩ | ⟨rfl, rfl⟩) <;> rfl

section Tests

variable [Element α] {setting : Setting} {place : Place α} {position : Option Position}

namespace Test

/-- Pseudo-classes are asked one after the other. -/
theorem all_append (ts us : List (Test α)) :
    all (ts ++ us) setting place position =
      Answer.and (all ts setting place position) (all us setting place position) := by
  induction ts with
  | nil => exact (Answer.true_and _).symm
  | cons t ts ih =>
    have hcons (ts : List (Test α)) : all (t :: ts) setting place position =
        Answer.and (t.verdict setting place position) (all ts setting place position) := rfl
    rw [List.cons_append, hcons, hcons, ih, Answer.and_assoc]

/-- A single pseudo-class gives its own answer. -/
theorem all_singleton (t : Test α) :
    all [t] setting place position = t.verdict setting place position :=
  Answer.and_true _

/-- Pseudo-classes that mean the same do so beside others. -/
theorem all_congr {ts us vs ws : List (Test α)} (h : all ts = all us) (h' : all vs = all ws) :
    all (ts ++ vs) = all (us ++ ws) := by
  funext setting place position
  rw [all_append, all_append, h, h']

/-- `:not` is the contrary of `:matches`. -/
theorem verdict_not (cs : List (Chain (Matcher α))) :
    (not cs).verdict setting place position =
      Answer.not ((Test.matches cs).verdict setting place position) := rfl

/-- `:matches` asks its alternatives one after the other. -/
theorem verdict_matches_append (as bs : List (Chain (Matcher α))) :
    (Test.matches (as ++ bs)).verdict setting place position =
      Answer.or ((Test.matches as).verdict setting place position)
        ((Test.matches bs).verdict setting place position) := by
  rw [verdict, verdict, verdict, Matcher.chains_eq_map, List.map_append, anyAlone_append,
    ← Matcher.chains_eq_map, ← Matcher.chains_eq_map]

/-- `:matches` of a single compound asks it within brackets. -/
theorem verdict_matches_singleton (m : Matcher α) :
    (Test.matches [⟨m, []⟩]).verdict setting place position =
      m.step.test (setting.within place) place position := by
  rw [verdict, Matcher.chains, Matcher.chains, Matcher.chain, Matcher.steps, anyAlone_singleton]

/-- Within brackets at the same node a pseudo-class gives the same answer, but for `:scope`. -/
theorem verdict_within {t : Test α} (ht : t ≠ scope) :
    t.verdict (setting.within place) place position = t.verdict setting place position := by
  cases t with
  | scope => exact absurd rfl ht
  | _ => rfl

/-- Within brackets at the same node pseudo-classes give the same answer, unless `:scope` is among
them. -/
theorem all_within {ts : List (Test α)} (hts : scope ∉ ts) :
    all ts (setting.within place) place position = all ts setting place position := by
  induction ts with
  | nil => rfl
  | cons t ts ih =>
    obtain ⟨ht, hts⟩ := List.ne_and_not_mem_of_not_mem_cons hts
    rw [all, all, verdict_within ht.symm, ih hts]

/-- None of some alternatives and others is none of these and none of those. -/
theorem all_not_append (as bs : List (Chain (Matcher α))) :
    all [not (as ++ bs)] = all [not as, not bs] := by
  funext setting place position
  have hboth : all [not as, not bs] setting place position =
      Answer.and (all [not as] setting place position) (all [not bs] setting place position) :=
    all_append [not as] [not bs]
  rw [hboth, all_singleton, all_singleton, all_singleton, verdict_not, verdict_not, verdict_not,
    verdict_matches_append, Answer.not_or]

end Test

namespace Matcher

/-- What a matcher means depends on what its pseudo-classes mean together. -/
theorem step_congr {ts us : List (Test α)} (h : Test.all ts = Test.all us)
    (type id : Option String) (classes : List String) (attributes : List AttributeMatcher)
    (combinator : Option Combinator) :
    step ⟨type, id, classes, attributes, ts, combinator⟩ =
      step ⟨type, id, classes, attributes, us, combinator⟩ := by
  rw [step, step, h]

/-- A matcher that asks for nothing but a pseudo-class answers as that does. -/
theorem test_ofTest (t : Test α) (combinator : Option Combinator) :
    (ofTest t combinator).step.test setting place position =
      t.verdict setting place position := by
  rw [test_step fun _ ↦ ⟨rfl, rfl⟩, ← Test.all_singleton t]
  rfl

/-- A plain matcher that does not ask for `:scope` itself means the same in brackets of its own. -/
theorem step_ofTest_matches {m : Matcher α} (hplain : m.Plain) (hscope : Test.scope ∉ m.tests)
    (combinator : Option Combinator) :
    (ofTest (.matches [⟨m, []⟩]) combinator).step =
      step { m with combinator := combinator } := by
  apply Step.eq_of_test
  · rw [combinator_step, combinator_step]
    rfl
  · funext setting place position
    have hout : (step { m with combinator := combinator }).test setting place position =
        if m.holdsAlone place.tree.content then Test.all m.tests setting place position
        else .ok (.of false) :=
      test_step fun _ ↦ hplain
    rw [hout, test_ofTest, Test.verdict_matches_singleton, test_step fun _ ↦ hplain,
      Test.all_within hscope]

end Matcher

/-- Not none of some alternatives is one of them. -/
theorem Test.all_not_not (as : List (Chain (Matcher α))) (combinator : Option Combinator) :
    all [not [⟨.ofTest (not as) combinator, []⟩]] = all [.matches as] := by
  funext setting place position
  have hwithin : (Test.matches as).verdict (setting.within place) place position =
      (Test.matches as).verdict setting place position :=
    verdict_within nofun
  rw [all_singleton, all_singleton, verdict_not, verdict_matches_singleton, Matcher.test_ofTest,
    verdict_not, Answer.not_not, hwithin]

/-- What a pseudo-class that takes a selector means depends on what the selector means. -/
theorem Test.all_selectorTest_congr {name : String} {test : List (Chain (Matcher α)) → Test α}
    (h : selectorTest? name = some test) {ms ns : List (Chain (Matcher α))}
    (hms : Matcher.chains ms = Matcher.chains ns) : all [test ms] = all [test ns] := by
  funext setting place position
  rw [all_singleton, all_singleton]
  rcases selectorTest?_eq_some.1 h with ⟨_, rfl⟩ | ⟨_, rfl⟩ | ⟨_, rfl⟩
  · rw [verdict, verdict, hms]
  · rw [verdict, verdict, hms]
  · rw [verdict, verdict, hms]

end Tests

open Outcome

section Resolve

variable {o : QueryOptions α}

namespace Selector

/-- A selector with the alternatives of two others is made ready as these are, in order. -/
theorem resolve_of_chains_append {s a b : Selector} (hs : s.chains = a.chains ++ b.chains) :
    s.resolve o = (do
      let as ← a.resolve o
      let bs ← b.resolve o
      return as ++ bs) := by
  simp only [resolve_eq_resolveChains, hs, resolveChains_eq_mapM, List.mapM_append]

/-- A selector with one compound is made ready as that is. -/
theorem resolve_of_chains_singleton {s : Selector} {c : Compound} (hs : s.chains = [⟨c, []⟩]) :
    s.resolve o = (do return [⟨← c.resolve o, []⟩]) := by
  simp only [resolve_eq_resolveChains, hs, resolveChains, resolveChain, resolveLinks, ok_bind,
    bind_assoc, pure_bind]

end Selector

namespace PseudoClass

/-- A pseudo-class that takes a selector is made ready as that is. -/
theorem resolve_selector {name : String} {test : List (Chain (Matcher α)) → Test α}
    (h : selectorTest? name = some test) (s : Selector) :
    (mk name (.selector s)).resolve o = (do return test (← s.resolve o)) := by
  rw [resolve]
  rcases selectorTest?_eq_some.1 h with ⟨rfl | rfl, rfl⟩ | ⟨rfl, rfl⟩ | ⟨rfl, rfl⟩ <;> rfl

/-- Standing alone, a pseudo-class that takes a selector is made ready as that is. -/
theorem resolveAll_selector {name : String} {test : List (Chain (Matcher α)) → Test α}
    (h : selectorTest? name = some test) (s : Selector) :
    resolveAll o [⟨name, .selector s⟩] = (do return [test (← s.resolve o)]) := by
  rw [resolveAll, resolve_selector h, resolveAll, bind_assoc]
  rfl

/-- Only the pseudo-class `:scope` is made ready as one. -/
theorem name_of_resolve_scope {p : PseudoClass} (h : p.resolve o = .ok .scope) :
    p.name = "scope" := by
  obtain ⟨name, argument⟩ := p
  rw [resolve] at h
  split at h
  · next test hbare =>
    unfold Argument.refuse at h
    split at h
    · obtain rfl := Except.ok.inj h
      unfold bareTest? at hbare
      split at hbare <;> simp_all
    · cases h
  · split at h
    · obtain ⟨formula, _, h⟩ := bind_eq_ok.1 h
      cases h
    · split at h
      · next test htest =>
        split at h
        · obtain ⟨ms, _, h⟩ := bind_eq_ok.1 h
          have hscope : test ms = .scope := Except.ok.inj h
          rcases selectorTest?_eq_some.1 htest with ⟨_, rfl⟩ | ⟨_, rfl⟩ | ⟨_, rfl⟩ <;> cases hscope
        · cases h
      · unfold customTest at h
        split at h
        · cases h
        · obtain ⟨argument, _, h⟩ := bind_eq_ok.1 h
          cases h

/-- Pseudo-classes without `:scope` are made ready without it. -/
theorem not_mem_resolveAll_scope {ps : List PseudoClass} {ts : List (Test α)}
    (hps : ∀ p ∈ ps, p.name ≠ "scope") (h : resolveAll o ps = .ok ts) : Test.scope ∉ ts := by
  rw [resolveAll_eq_mapM] at h
  intro hscope
  obtain ⟨p, hp, hresolve⟩ := mem_of_mapM_eq_ok h hscope
  exact hps p hp (name_of_resolve_scope hresolve)

end PseudoClass

namespace Compound

/-- A compound that is nothing but a pseudo-class is made ready as that is. -/
theorem resolve_ofPseudo (p : PseudoClass) (combinator : Option Combinator) :
    resolve o ⟨none, none, [], [], [p], combinator⟩ =
      (do return .ofTest (← p.resolve o) combinator) := by
  simp only [resolve, AttributeTest.resolveAll, PseudoClass.resolveAll, ok_bind, bind_assoc,
    pure_bind]
  rfl

/-- Which combinator leads to a compound does not matter to the rest of it. -/
theorem resolve_combinator (c : Compound) (combinator : Option Combinator) :
    resolve o { c with combinator := combinator } =
      (do return { ← c.resolve o with combinator := combinator }) := by
  obtain ⟨type, id, classes, attributes, pseudos, _⟩ := c
  simp only [resolve, bind_assoc, pure_bind]

/-- A compound without an identifier, a class and a `:scope` of its own is made ready as a plain
matcher that does not ask for `:scope` itself. -/
theorem plain_of_resolve {c : Compound} {m : Matcher α} (hid : c.id = none)
    (hclasses : c.classes = []) (hscope : ∀ p ∈ c.pseudos, p.name ≠ "scope")
    (h : c.resolve o = .ok m) : m.Plain ∧ Test.scope ∉ m.tests := by
  obtain ⟨type, id, classes, attributes, pseudos, combinator⟩ := c
  obtain rfl : id = none := hid
  obtain rfl : classes = [] := hclasses
  unfold resolve at h
  obtain ⟨as, _, h⟩ := bind_eq_ok.1 h
  obtain ⟨ts, hts, h⟩ := bind_eq_ok.1 h
  obtain rfl := Except.ok.inj h
  exact ⟨⟨rfl, rfl⟩, PseudoClass.not_mem_resolveAll_scope hscope hts⟩

end Compound

variable [Element α]

/-- Pseudo-classes that mean the same do so beside others. -/
theorem PseudoClass.all_resolveAll_congr (before after : List PseudoClass)
    {ps qs : List PseudoClass}
    (h : Test.all <$> resolveAll o ps = Test.all <$> resolveAll o qs) :
    Test.all <$> resolveAll o (before ++ ps ++ after) =
      Test.all <$> resolveAll o (before ++ qs ++ after) := by
  simp only [resolveAll_eq_mapM, List.mapM_append, bind_assoc, pure_bind] at h ⊢
  refine map_bind_congr_right fun ts _ ↦ map_bind_congr h fun us us' hus ↦
    map_bind_congr_right fun vs _ ↦ ?_
  exact congrArg Except.ok (Test.all_congr (Test.all_congr rfl hus) rfl)

/-- A compound means the same with pseudo-classes that do. -/
theorem Compound.step_resolve_congr (type : Option TypeTest) (id : Option String)
    (classes : List String) (attributes : List AttributeTest) (combinator : Option Combinator)
    {ps qs : List PseudoClass}
    (h : Test.all <$> PseudoClass.resolveAll o ps = Test.all <$> PseudoClass.resolveAll o qs) :
    Matcher.step <$> resolve o ⟨type, id, classes, attributes, ps, combinator⟩ =
      Matcher.step <$> resolve o ⟨type, id, classes, attributes, qs, combinator⟩ := by
  unfold resolve
  refine map_bind_congr_right fun as _ ↦ map_bind_congr h fun ts us hts ↦ ?_
  exact congrArg Except.ok (Matcher.step_congr hts ..)

mutual
/-- A selector that is rephrased means the same chains of steps. -/
theorem Selector.Rephrases.chains_resolve {s t : Selector} :
    s.Rephrases t → Matcher.chains <$> s.resolve o = Matcher.chains <$> t.resolve o
  | .chain h => by
    rw [Matcher.chains_eq]
    exact Selector.map_resolve_chain h.chain_resolveChain
  | .list before after h => by
    rw [Matcher.chains_eq]
    exact Selector.map_resolve_list before after h.chain_resolveChain

/-- A chain that is rephrased means the same chain of steps. -/
theorem Selector.ChainRephrases.chain_resolveChain {c d : Chain Compound} :
    Selector.ChainRephrases c d →
      Chain.map Matcher.step <$> Selector.resolveChain o c =
        Chain.map Matcher.step <$> Selector.resolveChain o d
  | .head links h => Selector.map_resolveChain_head links h.step_resolve
  | .link head before after h => Selector.map_resolveChain_link head before after h.step_resolve

/-- A compound that is rephrased means the same step. -/
theorem Compound.Rephrases.step_resolve {c d : Compound} :
    c.Rephrases d → Matcher.step <$> c.resolve o = Matcher.step <$> d.resolve o
  | .pseudos type id classes attributes before after combinator h =>
    Compound.step_resolve_congr type id classes attributes combinator
      (PseudoClass.all_resolveAll_congr before after h.all_resolveAll)
  | .unwrap s c combinator hs hid hclasses hscope => by
    have hmatches : selectorTest? "matches" = some (Test.matches (α := α)) := rfl
    rw [Compound.resolve_ofPseudo, PseudoClass.resolve_selector hmatches,
      Selector.resolve_of_chains_singleton hs, Compound.resolve_combinator]
    rcases hm : c.resolve o with e | m
    · rfl
    · obtain ⟨hplain, hscope⟩ := Compound.plain_of_resolve hid hclasses hscope hm
      exact congrArg Except.ok (Matcher.step_ofTest_matches hplain hscope combinator)

/-- Pseudo-classes that are rephrased mean the same together. -/
theorem PseudoClass.Rephrase.all_resolveAll {ps qs : List PseudoClass} :
    PseudoClass.Rephrase ps qs →
      Test.all <$> PseudoClass.resolveAll o ps = Test.all <$> PseudoClass.resolveAll o qs
  | .notOr s a b hs => by
    have hnot : selectorTest? "not" = some (Test.not (α := α)) := rfl
    rw [PseudoClass.resolveAll_selector hnot, Selector.resolve_of_chains_append hs,
      PseudoClass.resolveAll, PseudoClass.resolve_selector hnot,
      PseudoClass.resolveAll_selector hnot]
    rcases a.resolve o with e | as
    · rfl
    rcases b.resolve o with e | bs
    · rfl
    exact congrArg Except.ok (Test.all_not_append as bs)
  | .notNot s a combinator hs => by
    have hnot : selectorTest? "not" = some (Test.not (α := α)) := rfl
    have hmatches : selectorTest? "matches" = some (Test.matches (α := α)) := rfl
    rw [PseudoClass.resolveAll_selector hnot, Selector.resolve_of_chains_singleton hs,
      Compound.resolve_ofPseudo, PseudoClass.resolve_selector hnot,
      PseudoClass.resolveAll_selector hmatches]
    rcases a.resolve o with e | as
    · rfl
    exact congrArg Except.ok (Test.all_not_not as combinator)
  | .any s => by
    have hany : selectorTest? "any" = some (Test.matches (α := α)) := rfl
    have hmatches : selectorTest? "matches" = some (Test.matches (α := α)) := rfl
    rw [PseudoClass.resolveAll_selector hany, PseudoClass.resolveAll_selector hmatches]
  | .within name hname h => by
    obtain ⟨test, htest⟩ : ∃ test : List (Chain (Matcher α)) → Test α,
        selectorTest? name = some test := by
      rcases List.mem_cons.1 hname with rfl | hname
      · exact ⟨.matches, rfl⟩
      rcases List.mem_cons.1 hname with rfl | hname
      · exact ⟨.matches, rfl⟩
      rcases List.mem_cons.1 hname with rfl | hname
      · exact ⟨.not, rfl⟩
      obtain rfl := List.mem_singleton.1 hname
      exact ⟨.has, rfl⟩
    rw [PseudoClass.resolveAll_selector htest, PseudoClass.resolveAll_selector htest]
    refine map_bind_congr h.chains_resolve fun ms ns hms ↦ ?_
    exact congrArg Except.ok (Test.all_selectorTest_congr htest hms)
end

/-- Selectors that can be rephrased into each other mean the same chains of steps. -/
theorem Selector.chains_resolve_of_eqvGen {s t : Selector}
    (h : Relation.EqvGen Selector.Rephrases s t) :
    Matcher.chains <$> s.resolve o = Matcher.chains <$> t.resolve o :=
  Selector.eq_of_eqvGen (fun s ↦ Matcher.chains <$> s.resolve o)
    (fun _ _ h ↦ h.chains_resolve) h

end Resolve

namespace Query

variable [Element α] {o : QueryOptions α} {s t : Selector}

/-- Selectors that become each other when phrases in them are put in another way, any number of
them and in either direction, fail alike or give queries with the same answers for every tree,
errors included. -/
theorem ofSelector_of_rephrases (h : Relation.EqvGen Selector.Rephrases s t) :
    (∃ e, ofSelector o s = .error e ∧ ofSelector o t = .error e) ∨
      ∃ q r, ofSelector o s = .ok q ∧ ofSelector o t = .ok r ∧
        (∀ root, q.findAll root = r.findAll root) ∧
        (∀ root, q.findFirst root = r.findFirst root) ∧
        ∀ node parent, q.matchesAt node parent = r.matchesAt node parent := by
  unfold ofSelector
  rcases map_eq_map (Selector.chains_resolve_of_eqvGen (o := o) h) with
    ⟨e, hs, ht⟩ | ⟨ms, ns, hs, ht, hchains⟩
  · rw [hs, ht]
    exact .inl ⟨e, rfl, rfl⟩
  · rw [hs, ht]
    refine .inr ⟨_, _, rfl, rfl, fun root ↦ ?_, fun root ↦ ?_, fun node parent ↦ ?_⟩
    · simp only [findAll, search, hchains]
    · simp only [findFirst, search, hchains]
    · simp only [matchesAt, hchains]

/-- Among an item and two texts `:not(item, :matches(text))` finds the list alone, as
`:not(item):not(text)` does. -/
theorem ofSelector_of_rephrases_items :
    let named (name : String) : Compound := { Compound.blank with type := some (.named name) }
    let having (ps : List PseudoClass) : Compound := { Compound.blank with pseudos := ps }
    let item : Selector := .chain ⟨named "item", []⟩
    let text : Selector := .chain ⟨named "text", []⟩
    let among : Selector := .list [⟨named "item", []⟩, ⟨having [⟨"matches", .selector text⟩], []⟩]
    let s : Selector := .chain ⟨having [⟨"not", .selector among⟩], []⟩
    let t : Selector := .chain ⟨having [⟨"not", .selector item⟩, ⟨"not", .selector text⟩], []⟩
    let root := Node.ofChildren "list" [Node.ofType "item", Node.ofType "text", Node.ofType "text"]
    Relation.EqvGen Selector.Rephrases s t ∧ ∃ q r : Query Content,
      ofSelector .default s = .ok q ∧ ofSelector .default t = .ok r ∧
        q.findAll root = .ok [⟨[], root⟩] ∧ r.findAll root = .ok [⟨[], root⟩] := by
  intro named having item text among s t root
  let both : Selector := .list [⟨named "item", []⟩, ⟨named "text", []⟩]
  have hunwrap : Selector.Rephrases among both :=
    .list [⟨named "item", []⟩] []
      (.head [] (.unwrap text (named "text") none rfl rfl rfl (List.forall_mem_nil _)))
  have hwithin : Selector.Rephrases s (.chain ⟨having [⟨"not", .selector both⟩], []⟩) :=
    .chain (.head [] (.pseudos none none [] [] [] [] none (.within "not" (by decide) hunwrap)))
  have hnot : Selector.Rephrases (.chain ⟨having [⟨"not", .selector both⟩], []⟩) t :=
    .chain (.head [] (.pseudos none none [] [] [] [] none (.notOr both item text rfl)))
  have h : Relation.EqvGen Selector.Rephrases s t :=
    .trans _ _ _ (.rel _ _ hwithin) (.rel _ _ hnot)
  refine ⟨h, ?_⟩
  rcases ofSelector_of_rephrases (o := (QueryOptions.default : QueryOptions Content)) h with
    ⟨e, he, _⟩ | ⟨q, r, hq, hr, hall, _⟩
  · cases he
  · have hfound : q.findAll root = .ok [⟨[], root⟩] := by
      obtain rfl := Except.ok.inj hq
      rfl
    exact ⟨q, r, hq, hr, hfound, (hall root).symm.trans hfound⟩

end Query

end DocSelect
