import DocSelect.Proofs.Selector.Escape
import DocSelect.Proofs.Selector.WellFormed

/-!
# The texts of a selector

A selector has many texts: runs of blanks may stand around combinators, commas, comparisons and
arguments, and a formula may be written as a name or as it stands. What a text has to do with
the selector is said along the selector's syntax. The plain spelling of a well-formed selector
is one of its texts.
-/

namespace DocSelect

open Text (Blanks)

/-- Whether a text is another one between parentheses, blanks around it. -/
def Argument.Encloses (inner cs : List Char) : Prop :=
  ∃ g g', Blanks g ∧ Blanks g' ∧ cs = '(' :: (g ++ (inner ++ (g' ++ [')'])))

/-- Whether a text is a combinator with the blanks around it. -/
def Combinator.SpelledBy (op : Combinator) (cs : List Char) : Prop :=
  match op.mark? with
  | none => Blanks cs ∧ cs ≠ []
  | some c => ∃ g g', Blanks g ∧ Blanks g' ∧ cs = g ++ c :: g'

/-- Whether a text is a comparison with its expected side and the blanks before both. -/
def AttributeTest.ComparedBy : Option (Comparison × Operand) → List Char → Prop
  | none, cs => cs = []
  | some (op, value), cs =>
    ∃ g g', Blanks g ∧ Blanks g' ∧
      cs = g ++ (op.mark?.toList ++ '=' :: (g' ++ Spelling.operand value))

/-- Whether a text is an attribute test with its brackets. -/
def AttributeTest.SpelledBy (t : AttributeTest) (cs : List Char) : Prop :=
  ∃ g g' u, Blanks g ∧ Blanks g' ∧ AttributeTest.ComparedBy t.comparison u ∧
    cs = '[' :: (g ++ (Spelling.name t.name ++ (u ++ (g' ++ [']']))))

/-- Whether a text is those of some attribute tests, one behind the other. -/
def AttributeTest.AllSpelledBy : List AttributeTest → List Char → Prop
  | [], cs => cs = []
  | t :: ts, cs => ∃ u v, t.SpelledBy u ∧ AttributeTest.AllSpelledBy ts v ∧ cs = u ++ v

mutual
/-- Whether a text is one of a selector, without blanks around it. -/
def Selector.SpelledBy : Selector → List Char → Prop
  | .chain c, cs => Selector.ChainSpelledBy c cs
  | .list chains, cs => Selector.ChainsSpelledBy chains cs

/-- Whether a text is one of some alternatives. -/
def Selector.ChainsSpelledBy : List (Chain Compound) → List Char → Prop
  | [], cs => cs = []
  | c :: chains, cs =>
    ∃ u v, Selector.ChainSpelledBy c u ∧ Selector.MoreSpelledBy chains v ∧ cs = u ++ v

/-- Whether a text is one of some alternatives behind another one, each behind a comma. -/
def Selector.MoreSpelledBy : List (Chain Compound) → List Char → Prop
  | [], cs => cs = []
  | c :: chains, cs =>
    ∃ g g' u v, Blanks g ∧ Blanks g' ∧ Selector.ChainSpelledBy c u ∧
      Selector.MoreSpelledBy chains v ∧ cs = g ++ ',' :: (g' ++ (u ++ v))

/-- Whether a text is one of a chain. -/
def Selector.ChainSpelledBy : Chain Compound → List Char → Prop
  | ⟨head, links⟩, cs =>
    ∃ u v, head.SpelledBy u ∧ Selector.LinksSpelledBy links v ∧ cs = u ++ v

/-- Whether a text is one of some links, each behind its combinator. -/
def Selector.LinksSpelledBy : List Compound → List Char → Prop
  | [], cs => cs = []
  | c :: links, cs =>
    ∃ g u v, (∀ op ∈ c.combinator, op.SpelledBy g) ∧ c.SpelledBy u ∧
      Selector.LinksSpelledBy links v ∧ cs = g ++ (u ++ v)

/-- Whether a text is one of a compound, without its combinator. -/
def Compound.SpelledBy : Compound → List Char → Prop
  | ⟨type, id, classes, attributes, pseudos, _⟩, cs =>
    ∃ u v, AttributeTest.AllSpelledBy attributes u ∧ PseudoClass.AllSpelledBy pseudos v ∧
      cs = type.elim [] Spelling.typeTest ++ (id.elim [] ('#' :: Spelling.name ·) ++
        (classes.flatMap ('.' :: Spelling.name ·) ++ (u ++ v)))

/-- Whether a text is those of some pseudo-classes, one behind the other. -/
def PseudoClass.AllSpelledBy : List PseudoClass → List Char → Prop
  | [], cs => cs = []
  | p :: ps, cs => ∃ u v, p.SpelledBy u ∧ PseudoClass.AllSpelledBy ps v ∧ cs = u ++ v

/-- Whether a text is one of a pseudo-class. -/
def PseudoClass.SpelledBy : PseudoClass → List Char → Prop
  | ⟨name, argument⟩, cs =>
    ∃ u, argument.SpelledBy u ∧ cs = ':' :: (Spelling.name name ++ u)

/-- Whether a text is one of an argument with its parentheses. -/
def Argument.SpelledBy : Argument → List Char → Prop
  | .none, cs => cs = []
  | .text s, cs => Argument.Encloses (Spelling.name s) cs
  | .formula s, cs =>
    Argument.Encloses (Spelling.name s) cs ∨
      Spelling.isRawSafe s.toList = true ∧ Argument.Encloses s.toList cs
  | .variable s, cs => Argument.Encloses ('$' :: Spelling.name s) cs
  | .selector s, cs => ∃ u, s.SpelledBy u ∧ Argument.Encloses u cs
end

section Plain

/-- Parentheses without blanks enclose a text. -/
theorem Argument.encloses_plain (u : List Char) : Argument.Encloses u ('(' :: u ++ [')']) :=
  ⟨[], [], Text.blanks_nil, Text.blanks_nil, by simp⟩

/-- The plain spelling of a combinator is one of its texts. -/
theorem Combinator.spelledBy_combinator (op : Combinator) :
    op.SpelledBy (Spelling.combinator op) := by
  have hspace : Blanks [' '] := Text.blanks_cons.2 ⟨rfl, Text.blanks_nil⟩
  cases op with
  | descendant => exact ⟨hspace, List.cons_ne_nil _ _⟩
  | _ => exact ⟨[' '], [' '], hspace, hspace, rfl⟩

/-- The plain spelling of an attribute test is one of its texts. -/
theorem AttributeTest.spelledBy_attributeTest (t : AttributeTest) :
    t.SpelledBy (Spelling.attributeTest t) := by
  obtain ⟨name, comparison⟩ := t
  cases comparison with
  | none =>
    exact ⟨[], [], [], Text.blanks_nil, Text.blanks_nil, rfl, by simp [Spelling.attributeTest]⟩
  | some c =>
    obtain ⟨op, value⟩ := c
    refine ⟨[], [], op.mark?.toList ++ '=' :: Spelling.operand value, Text.blanks_nil,
      Text.blanks_nil, ?_, ?_⟩
    · exact ⟨[], [], Text.blanks_nil, Text.blanks_nil, rfl⟩
    · simp [Spelling.attributeTest]

/-- The plain spellings of attribute tests are among their texts. -/
theorem AttributeTest.allSpelledBy_flatMap (ts : List AttributeTest) :
    AttributeTest.AllSpelledBy ts (ts.flatMap Spelling.attributeTest) := by
  induction ts with
  | nil => rfl
  | cons t ts ih => exact ⟨_, _, spelledBy_attributeTest t, ih, List.flatMap_cons⟩

variable {d : Dialect}

/-- The plain spelling of a compound stands behind that of its combinator. -/
theorem Compound.spellLinked_eq (c : Compound) :
    c.spellLinked = c.combinator.elim [] Spelling.combinator ++ c.spell := by
  obtain ⟨type, id, classes, attributes, pseudos, combinator⟩ := c
  rw [Compound.spellLinked, List.append_assoc]
  rfl

/-- The plain spelling of alternatives is that of the first and those of the others. -/
theorem Selector.spellChains_cons (c : Chain Compound) (cs : List (Chain Compound)) :
    Selector.spellChains (c :: cs) =
      Selector.spellChain c ++ cs.flatMap fun c' ↦ ',' :: ' ' :: Selector.spellChain c' := by
  induction cs generalizing c with
  | nil => simp [Selector.spellChains]
  | cons c' cs ih => simp [Selector.spellChains, ih]

mutual
/-- The plain spelling of a well-formed selector is one of its texts. -/
theorem Selector.spelledBy_spell : (s : Selector) → s.WellFormed d → s.SpelledBy s.spell
  | .chain c, h => by
    rw [Selector.spell]
    exact Selector.chainSpelledBy_spellChain c h
  | .list [], _ => rfl
  | .list (c :: cs), h => by
    rw [Selector.spell, Selector.spellChains_cons]
    exact ⟨_, _, Selector.chainSpelledBy_spellChain c h.2.1,
      Selector.moreSpelledBy_flatMap cs h.2.2, rfl⟩

/-- The plain spellings of more alternatives, each behind a comma and a space. -/
theorem Selector.moreSpelledBy_flatMap : (cs : List (Chain Compound)) →
    Selector.ChainsWellFormed d cs →
    Selector.MoreSpelledBy cs (cs.flatMap fun c ↦ ',' :: ' ' :: Selector.spellChain c)
  | [], _ => rfl
  | c :: cs, h =>
    ⟨[], [' '], _, _, Text.blanks_nil, Text.blanks_cons.2 ⟨rfl, Text.blanks_nil⟩,
      Selector.chainSpelledBy_spellChain c h.1, Selector.moreSpelledBy_flatMap cs h.2, rfl⟩

/-- The plain spelling of a chain is one of its texts. -/
theorem Selector.chainSpelledBy_spellChain : (c : Chain Compound) →
    Selector.ChainWellFormed d c → Selector.ChainSpelledBy c (Selector.spellChain c)
  | ⟨head, links⟩, ⟨hnone, hhead, hlinks⟩ => by
    refine ⟨_, _, Compound.spelledBy_spell head hhead,
      Selector.linksSpelledBy_spellLinks links hlinks, ?_⟩
    rw [Selector.spellChain, Compound.spellLinked_eq, hnone]
    rfl

/-- The plain spellings of links are among their texts. -/
theorem Selector.linksSpelledBy_spellLinks : (links : List Compound) →
    Selector.LinksWellFormed d links → Selector.LinksSpelledBy links (Selector.spellLinks links)
  | [], _ => rfl
  | c :: links, ⟨⟨op, hop, _⟩, hc, hlinks⟩ => by
    refine ⟨Spelling.combinator op, _, _, fun op' hop' ↦ ?_, Compound.spelledBy_spell c hc,
      Selector.linksSpelledBy_spellLinks links hlinks, ?_⟩
    · rw [hop] at hop'
      obtain rfl := Option.some.inj hop'
      exact op.spelledBy_combinator
    · rw [Selector.spellLinks, Compound.spellLinked_eq, hop, List.append_assoc]
      rfl

/-- The plain spelling of a compound is one of its texts. -/
theorem Compound.spelledBy_spell : (c : Compound) → c.WellFormed d → c.SpelledBy c.spell
  | ⟨type, id, classes, attributes, pseudos, combinator⟩, h => by
    refine ⟨_, _, AttributeTest.allSpelledBy_flatMap attributes,
      PseudoClass.allSpelledBy_spellAll pseudos h.2.2.2.2.2, ?_⟩
    simp [Compound.spell, Spelling.plainParts]

/-- The plain spellings of pseudo-classes are among their texts. -/
theorem PseudoClass.allSpelledBy_spellAll : (ps : List PseudoClass) →
    PseudoClass.AllWellFormed d ps → PseudoClass.AllSpelledBy ps (PseudoClass.spellAll ps)
  | [], _ => rfl
  | p :: ps, h =>
    ⟨_, _, PseudoClass.spelledBy_spell p h.1, PseudoClass.allSpelledBy_spellAll ps h.2, rfl⟩

/-- The plain spelling of a pseudo-class is one of its texts. -/
theorem PseudoClass.spelledBy_spell : (p : PseudoClass) → p.WellFormed d → p.SpelledBy p.spell
  | ⟨name, argument⟩, h => by
    refine ⟨argument.spell, Argument.spelledBy_spell argument _ h.2, ?_⟩
    rw [PseudoClass.spell]
    rfl

/-- The plain spelling of an argument is one of its texts. -/
theorem Argument.spelledBy_spell : (a : Argument) → (kind : ArgumentKind) →
    a.WellFormed d kind → a.SpelledBy a.spell
  | .none, _, _ => rfl
  | .text s, _, _ => Argument.encloses_plain (Spelling.name s)
  | .formula s, _, _ => by
    rw [Argument.spell, Spelling.formula]
    split
    · next hs => exact .inr ⟨hs, Argument.encloses_plain s.toList⟩
    · exact .inl (Argument.encloses_plain (Spelling.name s))
  | .variable s, _, _ => Argument.encloses_plain ('$' :: Spelling.name s)
  | .selector s, _, h =>
    ⟨s.spell, Selector.spelledBy_spell s h.2, Argument.encloses_plain s.spell⟩
end

end Plain

end DocSelect
