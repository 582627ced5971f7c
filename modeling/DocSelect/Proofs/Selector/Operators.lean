import DocSelect.Proofs.Selector.WellFormed

/-!
# The operators of a selector

Dialects differ in the combinators and comparisons that they allow. Here they are taken together
as operators, and the operators of a selector are those that it uses at any depth. A well-formed
selector uses none that its dialect does not allow.
-/

namespace DocSelect

/-- A combinator or a comparison. -/
inductive Operator where
  | combinator (op : Combinator)
  | comparison (op : Comparison)
deriving DecidableEq, Repr

/-- The mark of an operator. Blank space and plain equality have none. -/
def Operator.mark? : Operator → Option Char
  | combinator op => op.mark?
  | comparison op => op.mark?

/-- Whether a dialect allows an operator. -/
def Dialect.allows (d : Dialect) : Operator → Bool
  | .combinator op => d.allowsCombinator op
  | .comparison op => d.allowsComparison op

/-- The operator of an attribute test, if it has one. -/
def AttributeTest.operators (t : AttributeTest) : List Operator :=
  (t.comparison.map fun c ↦ Operator.comparison c.1).toList

mutual
/-- The operators of a selector. -/
def Selector.operators : Selector → List Operator
  | .chain c => Selector.chainOperators c
  | .list cs => Selector.chainsOperators cs

/-- The operators of some alternatives. -/
def Selector.chainsOperators : List (Chain Compound) → List Operator
  | [] => []
  | c :: cs => Selector.chainOperators c ++ Selector.chainsOperators cs

/-- The operators of a chain. -/
def Selector.chainOperators : Chain Compound → List Operator
  | ⟨head, links⟩ => head.operators ++ Selector.linksOperators links

/-- The operators of some links. -/
def Selector.linksOperators : List Compound → List Operator
  | [] => []
  | c :: cs => c.operators ++ Selector.linksOperators cs

/-- The operators of a compound: the combinator that leads to it, and those of its tests. -/
def Compound.operators : Compound → List Operator
  | ⟨_, _, _, attributes, pseudos, combinator⟩ =>
    (combinator.map Operator.combinator).toList ++ attributes.flatMap AttributeTest.operators ++
      PseudoClass.allOperators pseudos

/-- The operators of some pseudo-classes. -/
def PseudoClass.allOperators : List PseudoClass → List Operator
  | [] => []
  | p :: ps => p.operators ++ PseudoClass.allOperators ps

/-- The operators of a pseudo-class. -/
def PseudoClass.operators : PseudoClass → List Operator
  | ⟨_, argument⟩ => argument.operators

/-- The operators of an argument. -/
def Argument.operators : Argument → List Operator
  | .selector s => s.operators
  | _ => []
end

/-- The operators of one part of a compound. -/
def Part.operators : Part → List Operator
  | .attr test => test.operators
  | .pseudo test => test.operators
  | _ => []

section Syntax

/-- The operators of pseudo-classes are those of each of them. -/
theorem PseudoClass.mem_allOperators {op : Operator} {ps : List PseudoClass} :
    op ∈ PseudoClass.allOperators ps ↔ ∃ p ∈ ps, op ∈ p.operators := by
  induction ps with
  | nil => simp [PseudoClass.allOperators]
  | cons p ps ih => simp [PseudoClass.allOperators, ih]

/-- The selector of some alternatives has their operators. -/
theorem Selector.operators_ofChains (cs : List (Chain Compound)) :
    (Selector.ofChains cs).operators = Selector.chainsOperators cs := by
  match cs with
  | [] => simp [ofChains, operators]
  | [c] => simp [ofChains, operators, chainsOperators]
  | c :: c' :: cs => simp [ofChains, operators]

/-- A compound reached by a combinator has that operator besides those of its tests. -/
theorem Compound.operators_withCombinator {c : Compound} (h : c.combinator = none)
    (op : Combinator) :
    Compound.operators { c with combinator := some op } = .combinator op :: c.operators := by
  obtain ⟨type, id, classes, attributes, pseudos, combinator⟩ := c
  obtain rfl : combinator = none := h
  simp [Compound.operators]

/-- The compound of some parts has their operators. -/
theorem Compound.mem_operators_ofParts {type : Option TypeTest} {ps : List Part} {op : Operator} :
    op ∈ (Compound.ofParts type ps).operators ↔ ∃ p ∈ ps, op ∈ p.operators := by
  simp only [ofParts, Compound.operators, Option.map_none, Option.toList_none, List.nil_append,
    List.mem_append, List.mem_flatMap, List.mem_filterMap, PseudoClass.mem_allOperators]
  constructor
  · rintro (⟨t, ⟨p, hp, he⟩, hop⟩ | ⟨t, ⟨p, hp, he⟩, hop⟩)
    · cases p with
      | attr test =>
        obtain rfl := Option.some.inj he
        exact ⟨_, hp, hop⟩
      | _ => cases he
    · cases p with
      | pseudo test =>
        obtain rfl := Option.some.inj he
        exact ⟨_, hp, hop⟩
      | _ => cases he
  · rintro ⟨p, hp, hop⟩
    cases p with
    | attr test => exact .inl ⟨test, ⟨_, hp, rfl⟩, hop⟩
    | pseudo test => exact .inr ⟨test, ⟨_, hp, rfl⟩, hop⟩
    | _ => cases hop

end Syntax

section Allowed

variable {d : Dialect}

/-- A well-formed attribute test has no operator that is not allowed. -/
theorem AttributeTest.WellFormed.allows {t : AttributeTest} (h : t.WellFormed d) :
    ∀ op ∈ t.operators, d.allows op = true := by
  intro op hop
  obtain ⟨c, hc, rfl⟩ := Option.map_eq_some_iff.1 (Option.mem_toList.1 hop)
  exact (h.2 c hc).1

mutual
/-- A well-formed selector has no operator that is not allowed. -/
theorem Selector.allows_of_wellFormed : (s : Selector) → s.WellFormed d →
    ∀ op ∈ s.operators, d.allows op = true
  | .chain c, h => Selector.allows_of_chain c h
  | .list cs, h => Selector.allows_of_chains cs h.2

/-- Well-formed alternatives have no operator that is not allowed. -/
theorem Selector.allows_of_chains : (cs : List (Chain Compound)) →
    Selector.ChainsWellFormed d cs → ∀ op ∈ Selector.chainsOperators cs, d.allows op = true
  | [], _ => by simp [Selector.chainsOperators]
  | c :: cs, h => by
    rw [Selector.chainsOperators]
    exact List.forall_mem_append.2
      ⟨Selector.allows_of_chain c h.1, Selector.allows_of_chains cs h.2⟩

/-- A well-formed chain has no operator that is not allowed. -/
theorem Selector.allows_of_chain : (c : Chain Compound) → Selector.ChainWellFormed d c →
    ∀ op ∈ Selector.chainOperators c, d.allows op = true
  | ⟨head, links⟩, h => by
    have hhead : ∀ op ∈ head.combinator, d.allowsCombinator op = true := by
      intro op hop
      rw [h.1] at hop
      cases hop
    rw [Selector.chainOperators]
    exact List.forall_mem_append.2
      ⟨Compound.allows_of_wellFormed head hhead h.2.1, Selector.allows_of_links links h.2.2⟩

/-- Well-formed links have no operator that is not allowed. -/
theorem Selector.allows_of_links : (cs : List Compound) → Selector.LinksWellFormed d cs →
    ∀ op ∈ Selector.linksOperators cs, d.allows op = true
  | [], _ => by simp [Selector.linksOperators]
  | c :: cs, h => by
    have hc : ∀ op ∈ c.combinator, d.allowsCombinator op = true := by
      intro op hop
      obtain ⟨op', hop', hd⟩ := h.1
      rw [hop'] at hop
      rwa [← Option.some.inj hop]
    rw [Selector.linksOperators]
    exact List.forall_mem_append.2
      ⟨Compound.allows_of_wellFormed c hc h.2.1, Selector.allows_of_links cs h.2.2⟩

/-- A well-formed compound whose combinator is allowed has no operator that is not. -/
theorem Compound.allows_of_wellFormed : (c : Compound) →
    (∀ op ∈ c.combinator, d.allowsCombinator op = true) → c.WellFormed d →
    ∀ op ∈ c.operators, d.allows op = true
  | ⟨type, id, classes, attributes, pseudos, combinator⟩, hc, h => by
    obtain ⟨_, _, _, _, hattributes, hpseudos⟩ := h
    rw [Compound.operators]
    refine List.forall_mem_append.2 ⟨List.forall_mem_append.2 ⟨?_, ?_⟩,
      PseudoClass.allows_of_all pseudos hpseudos⟩
    · intro op hop
      obtain ⟨op', hop', rfl⟩ := Option.map_eq_some_iff.1 (Option.mem_toList.1 hop)
      exact hc op' hop'
    · intro op hop
      obtain ⟨t, ht, hop⟩ := List.mem_flatMap.1 hop
      exact (hattributes t ht).allows op hop

/-- Well-formed pseudo-classes have no operator that is not allowed. -/
theorem PseudoClass.allows_of_all : (ps : List PseudoClass) → PseudoClass.AllWellFormed d ps →
    ∀ op ∈ PseudoClass.allOperators ps, d.allows op = true
  | [], _ => by simp [PseudoClass.allOperators]
  | p :: ps, h => by
    rw [PseudoClass.allOperators]
    exact List.forall_mem_append.2
      ⟨PseudoClass.allows_of_wellFormed p h.1, PseudoClass.allows_of_all ps h.2⟩

/-- A well-formed pseudo-class has no operator that is not allowed. -/
theorem PseudoClass.allows_of_wellFormed : (p : PseudoClass) → p.WellFormed d →
    ∀ op ∈ p.operators, d.allows op = true
  | ⟨name, argument⟩, h => by
    rw [PseudoClass.operators]
    exact Argument.allows_of_wellFormed argument h.2

/-- A well-formed argument has no operator that is not allowed. -/
theorem Argument.allows_of_wellFormed {kind : ArgumentKind} : (v : Argument) →
    v.WellFormed d kind → ∀ op ∈ v.operators, d.allows op = true
  | .selector s, h => by
    rw [Argument.operators]
    exact Selector.allows_of_wellFormed s h.2
  | .none, _ => by simp [Argument.operators]
  | .text _, _ => by simp [Argument.operators]
  | .formula _, _ => by simp [Argument.operators]
  | .variable _, _ => by simp [Argument.operators]
end

end Allowed

end DocSelect
