import DocSelect.Query.Matcher
import DocSelect.Proofs.Outcome

/-!
# Making selectors ready

A selector is made ready part by part, in order, and the first part that cannot be made ready is
the error. So whatever is made ready comes from a part of the selector that was, and selectors
with a part that looks alike once it is made ready look alike themselves.
-/

namespace DocSelect

open Outcome

variable {α : Type} {o : QueryOptions α}

/-- The chain of what becomes of each element. -/
def Chain.map {β γ : Type} (f : β → γ) (c : Chain β) : Chain γ := ⟨f c.head, c.links.map f⟩

/-- Attributes are made ready one after the other. -/
theorem AttributeTest.resolveAll_eq_mapM (ts : List AttributeTest) :
    resolveAll o ts = ts.mapM (AttributeTest.resolve o) := by
  induction ts with
  | nil => rfl
  | cons t ts ih => rw [resolveAll, List.mapM_cons, ih]

namespace Selector

/-- Alternatives are made ready one after the other. -/
theorem resolveChains_eq_mapM (cs : List (Chain Compound)) :
    resolveChains o cs = cs.mapM (resolveChain o) := by
  induction cs with
  | nil => rfl
  | cons c cs ih => rw [resolveChains, List.mapM_cons, ih]

/-- Links are made ready one after the other. -/
theorem resolveLinks_eq_mapM (cs : List Compound) :
    resolveLinks o cs = cs.mapM (Compound.resolve o) := by
  induction cs with
  | nil => rfl
  | cons c cs ih => rw [resolveLinks, List.mapM_cons, ih]

/-- A selector is made ready by its alternatives, however it is written. -/
theorem resolve_eq_resolveChains (s : Selector) : s.resolve o = resolveChains o s.chains := by
  cases s with
  | list cs => rw [resolve, chains]
  | chain c =>
    rw [resolve, chains, resolveChains]
    rfl

end Selector

namespace PseudoClass

/-- Pseudo-classes are made ready one after the other. -/
theorem resolveAll_eq_mapM (ps : List PseudoClass) :
    resolveAll o ps = ps.mapM (PseudoClass.resolve o) := by
  induction ps with
  | nil => rfl
  | cons p ps ih => rw [resolveAll, List.mapM_cons, ih]

end PseudoClass

section Alike

variable {β : Type} {g : Matcher α → β}

namespace Selector

/-- Chains are made ready alike if their heads are and their links are the same. -/
theorem map_resolveChain_head (links : List Compound) {c d : Compound}
    (h : g <$> c.resolve o = g <$> d.resolve o) :
    Chain.map g <$> resolveChain o ⟨c, links⟩ = Chain.map g <$> resolveChain o ⟨d, links⟩ := by
  rw [resolveChain, resolveChain]
  refine map_bind_congr h fun a b hab ↦ map_bind_congr_right fun ms _ ↦ ?_
  simp [Chain.map, hab]

/-- Chains are made ready alike if one link of each is and the rest is the same. -/
theorem map_resolveChain_link (head : Compound) (before after : List Compound) {c d : Compound}
    (h : g <$> c.resolve o = g <$> d.resolve o) :
    Chain.map g <$> resolveChain o ⟨head, before ++ c :: after⟩ =
      Chain.map g <$> resolveChain o ⟨head, before ++ d :: after⟩ := by
  rw [resolveChain, resolveChain, resolveLinks_eq_mapM, resolveLinks_eq_mapM]
  refine map_bind_congr_right fun m _ ↦
    map_bind_congr (map_mapM_congr before after h) fun ms ns hms ↦ ?_
  simp [Chain.map, hms]

/-- Selectors of one alternative are made ready alike if these are. -/
theorem map_resolve_chain {c d : Chain Compound}
    (h : Chain.map g <$> resolveChain o c = Chain.map g <$> resolveChain o d) :
    List.map (Chain.map g) <$> resolve o (.chain c) =
      List.map (Chain.map g) <$> resolve o (.chain d) := by
  rw [resolve, resolve]
  refine map_bind_congr h fun a b hab ↦ ?_
  simp [hab]

/-- Lists of alternatives are made ready alike if one of each is and the rest is the same. -/
theorem map_resolve_list (before after : List (Chain Compound)) {c d : Chain Compound}
    (h : Chain.map g <$> resolveChain o c = Chain.map g <$> resolveChain o d) :
    List.map (Chain.map g) <$> resolve o (.list (before ++ c :: after)) =
      List.map (Chain.map g) <$> resolve o (.list (before ++ d :: after)) := by
  rw [resolve, resolve, resolveChains_eq_mapM, resolveChains_eq_mapM]
  exact map_mapM_congr before after h

end Selector

end Alike

/-- Each matcher of a selector that was made ready is what one of its compounds was made. -/
theorem Selector.exists_compound_of_resolve {s : Selector} {ms : List (Chain (Matcher α))}
    (h : s.resolve o = .ok ms) {chain : Chain (Matcher α)} (hchain : chain ∈ ms) {m : Matcher α}
    (hm : m ∈ chain.toList) : ∃ c ∈ s.chains, ∃ d ∈ c.toList, d.resolve o = .ok m := by
  rw [resolve_eq_resolveChains, resolveChains_eq_mapM] at h
  obtain ⟨⟨head, links⟩, hc, hresolve⟩ := mem_of_mapM_eq_ok h hchain
  rw [resolveChain, resolveLinks_eq_mapM] at hresolve
  obtain ⟨m', hhead, hresolve⟩ := bind_eq_ok.1 hresolve
  obtain ⟨links', hlinks, hresolve⟩ := bind_eq_ok.1 hresolve
  obtain rfl := Except.ok.inj hresolve
  refine ⟨_, hc, ?_⟩
  rcases List.mem_cons.1 hm with rfl | hm
  · exact ⟨head, List.mem_cons_self, hhead⟩
  · obtain ⟨d, hd, hresolve⟩ := mem_of_mapM_eq_ok hlinks hm
    exact ⟨d, List.mem_cons_of_mem head hd, hresolve⟩

/-- A compound without pseudo-classes is made a matcher without any. -/
theorem Compound.tests_of_resolve {c : Compound} {m : Matcher α} (hc : c.pseudos = [])
    (h : c.resolve o = .ok m) : m.tests = [] := by
  obtain ⟨type, id, classes, attributes, pseudos, combinator⟩ := c
  obtain rfl : pseudos = [] := hc
  simp only [resolve, PseudoClass.resolveAll] at h
  obtain ⟨as, _, h⟩ := bind_eq_ok.1 h
  obtain rfl := Except.ok.inj h
  rfl

end DocSelect
