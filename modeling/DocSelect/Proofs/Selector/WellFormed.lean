import DocSelect.Selector.Parser

/-!
# Well-formed selectors

The types of selectors hold values that no text denotes. Under a dialect a selector is
well-formed if it has none of their oddities, at any depth: its alternatives are written in the
plainest way, its heads carry no combinator and its links one of the dialect, its compounds test
something, its names are not empty, and its arguments are of the kinds that the dialect reads.
-/

namespace DocSelect

/-- Whether a type test by name has a name. -/
def TypeTest.WellFormed : TypeTest → Prop
  | .any => True
  | .named s => s ≠ ""

/-- Whether a variable is allowed and has a name. -/
def Operand.WellFormed (d : Dialect) : Operand → Prop
  | .text _ => True
  | .variable s => d.allowsVariables = true ∧ s ≠ ""

/-- Whether an attribute has a name and is compared as the dialect allows. -/
def AttributeTest.WellFormed (d : Dialect) (t : AttributeTest) : Prop :=
  t.name ≠ "" ∧ ∀ c ∈ t.comparison, d.allowsComparison c.1 = true ∧ c.2.WellFormed d

mutual
/-- Whether a selector is one that the grammar of a dialect can read. -/
def Selector.WellFormed (d : Dialect) : Selector → Prop
  | .chain c => Selector.ChainWellFormed d c
  | .list cs => cs.length ≠ 1 ∧ Selector.ChainsWellFormed d cs

/-- Whether all of some alternatives are well-formed. -/
def Selector.ChainsWellFormed (d : Dialect) : List (Chain Compound) → Prop
  | [] => True
  | c :: cs => Selector.ChainWellFormed d c ∧ Selector.ChainsWellFormed d cs

/-- Whether the head of a chain carries no combinator, and all its compounds are well-formed. -/
def Selector.ChainWellFormed (d : Dialect) : Chain Compound → Prop
  | ⟨head, links⟩ =>
    head.combinator = none ∧ head.WellFormed d ∧ Selector.LinksWellFormed d links

/-- Whether all of some links carry a combinator of the dialect and are well-formed. -/
def Selector.LinksWellFormed (d : Dialect) : List Compound → Prop
  | [] => True
  | c :: cs =>
    (∃ op, c.combinator = some op ∧ d.allowsCombinator op = true) ∧ c.WellFormed d ∧
      Selector.LinksWellFormed d cs

/-- Whether a compound tests something, and all that it tests is well-formed. -/
def Compound.WellFormed (d : Dialect) : Compound → Prop
  | ⟨type, id, classes, attributes, pseudos, combinator⟩ =>
    Compound.isBlank ⟨type, id, classes, attributes, pseudos, combinator⟩ = false ∧
      (∀ t ∈ type, t.WellFormed) ∧ (∀ s ∈ id, s ≠ "") ∧ (∀ s ∈ classes, s ≠ "") ∧
      (∀ t ∈ attributes, t.WellFormed d) ∧ PseudoClass.AllWellFormed d pseudos

/-- Whether all of some pseudo-classes are well-formed. -/
def PseudoClass.AllWellFormed (d : Dialect) : List PseudoClass → Prop
  | [] => True
  | p :: ps => p.WellFormed d ∧ PseudoClass.AllWellFormed d ps

/-- Whether a pseudo-class has a name, and an argument of the kind of that name if any. -/
def PseudoClass.WellFormed (d : Dialect) : PseudoClass → Prop
  | ⟨name, argument⟩ => name ≠ "" ∧ argument.WellFormed d (d.argumentKind name)

/-- Whether an argument is one of a kind, or a variable in place of a plain one. -/
def Argument.WellFormed (d : Dialect) (kind : ArgumentKind) : Argument → Prop
  | .none => True
  | .text _ => kind = .text
  | .formula _ => kind = .formula
  | .variable s => kind ≠ .selector ∧ d.allowsVariables = true ∧ s ≠ ""
  | .selector s => kind = .selector ∧ s.WellFormed d
end

/-- Whether one part of a compound is well-formed. -/
def Part.WellFormed (d : Dialect) : Part → Prop
  | .id name => name ≠ ""
  | .className name => name ≠ ""
  | .attr test => test.WellFormed d
  | .pseudo test => test.WellFormed d

section Parts

variable {d : Dialect}

/-- Pseudo-classes are well-formed one by one. -/
theorem PseudoClass.allWellFormed_iff {ps : List PseudoClass} :
    PseudoClass.AllWellFormed d ps ↔ ∀ p ∈ ps, p.WellFormed d := by
  induction ps with
  | nil => simp [PseudoClass.AllWellFormed]
  | cons p ps ih => rw [PseudoClass.AllWellFormed, ih, List.forall_mem_cons]

/-- A combinator does not matter to what a compound tests. -/
theorem Compound.wellFormed_withCombinator {c : Compound} {op : Option Combinator} :
    Compound.WellFormed d { c with combinator := op } ↔ c.WellFormed d := by
  obtain ⟨type, id, classes, attributes, pseudos, combinator⟩ := c
  rw [Compound.WellFormed, Compound.WellFormed]
  rfl

/-- The selector of well-formed alternatives is well-formed. -/
theorem Selector.wellFormed_ofChains {cs : List (Chain Compound)} :
    (Selector.ofChains cs).WellFormed d ↔ Selector.ChainsWellFormed d cs := by
  match cs with
  | [] => simp [ofChains, WellFormed]
  | [c] => simp [ofChains, WellFormed, ChainsWellFormed]
  | c :: c' :: cs => simp [ofChains, WellFormed]

/-- A compound of at least one part is not blank. -/
theorem Compound.isBlank_ofParts_cons (type : Option TypeTest) (p : Part) (ps : List Part) :
    (Compound.ofParts type (p :: ps)).isBlank = false := by
  cases p <;> simp [ofParts, isBlank, Part.id?, Part.class?, Part.attribute?, Part.pseudo?]

/-- A compound of well-formed parts is well-formed unless it is blank. -/
theorem Compound.wellFormed_ofParts {type : Option TypeTest} {ps : List Part}
    (hblank : (Compound.ofParts type ps).isBlank = false) (htype : ∀ t ∈ type, t.WellFormed)
    (hps : ∀ p ∈ ps, p.WellFormed d) : (Compound.ofParts type ps).WellFormed d := by
  have mem {β : Type} {f : Part → Option β} {b : β} (h : b ∈ ps.filterMap f) :
      ∃ p ∈ ps, f p = some b := List.mem_filterMap.1 h
  rw [ofParts, Compound.WellFormed, PseudoClass.allWellFormed_iff]
  refine ⟨hblank, htype, ?_, ?_, ?_, ?_⟩
  · intro s hs
    obtain ⟨p, hp, he⟩ := mem (List.mem_of_mem_getLast? hs)
    cases p with
    | id name =>
      obtain rfl := Option.some.inj he
      exact hps _ hp
    | _ => cases he
  · intro s hs
    obtain ⟨p, hp, he⟩ := mem hs
    cases p with
    | className name =>
      obtain rfl := Option.some.inj he
      exact hps _ hp
    | _ => cases he
  · intro t ht
    obtain ⟨p, hp, he⟩ := mem ht
    cases p with
    | attr test =>
      obtain rfl := Option.some.inj he
      exact hps _ hp
    | _ => cases he
  · intro t ht
    obtain ⟨p, hp, he⟩ := mem ht
    cases p with
    | pseudo test =>
      obtain rfl := Option.some.inj he
      exact hps _ hp
    | _ => cases he

end Parts

end DocSelect
