import DocSelect.Proofs.Selector.Operators
import DocSelect.Proofs.Selector.Soundness

/-!
# Restricted dialects

A dialect that only leaves operators out reads fewer selectors than another one, and reads them
alike. What it does not read any more it refuses at an operator that it leaves out. The two
dialects read a text in step until one of them refuses an operator.
-/

namespace DocSelect

open Text (AtMost skipBlank)
open Lexeme (Gives Taken gives_bind gives_pure gives_ok not_gives_error)

/-- Whether a dialect differs from another one only in operators that it leaves out. -/
structure Dialect.Restricts (d d' : Dialect) : Prop where
  argumentKind (name : String) : d.argumentKind name = d'.argumentKind name
  allowsVariables : d.allowsVariables = d'.allowsVariables
  allows (op : Operator) (h : d.allows op = true) : d'.allows op = true

/-- Whether a reader fails at an operator because a dialect does not allow it. -/
def Dialect.Refuses {β : Type} (d : Dialect) (op : Operator) (x : Except Problem β) : Prop :=
  d.allows op = false ∧
    ∃ c start stop, op.mark? = some c ∧ x = .error ⟨.unknownOperator c, start, stop⟩

/-- A reader that fails at an operator fails there whatever would follow. -/
theorem Dialect.Refuses.bind {β γ : Type} {d : Dialect} {op : Operator} {x : Except Problem β}
    (h : d.Refuses op x) (f : β → Except Problem γ) : d.Refuses op (x >>= f) := by
  obtain ⟨hd, c, start, stop, hc, rfl⟩ := h
  exact ⟨hd, c, start, stop, hc, rfl⟩

namespace Lexeme

variable {α β : Type} {m n : Nat}

/-- Whether a reader gives only what another one gives, and all of it but for values with an
operator that a dialect refuses. -/
structure Follows (d : Dialect) (operators : α → List Operator) (x x' : Taken α n) : Prop where
  given {v : α} {rest : List Char} (h : Gives x v rest) : Gives x' v rest
  taken {v : α} {rest : List Char} (h : Gives x' v rest) :
    Gives x v rest ∨ ∃ op ∈ operators v, d.Refuses op x

namespace Follows

variable {d : Dialect} {operators : α → List Operator} {operators' : β → List Operator}
  {x x' : Taken α n}

/-- A reading follows itself. -/
theorem refl (x : Taken α n) : Follows d operators x x := ⟨id, .inl⟩

/-- A reader that fails at an operator which all values of the other one have. -/
theorem of_refuses {op : Operator} {p : Problem} (href : d.Refuses op (.error p : Taken α n))
    (hop : ∀ v rest, Gives x' v rest → op ∈ operators v) :
    Follows d operators (.error p) x' where
  given hv := absurd hv not_gives_error
  taken hv := .inr ⟨op, hop _ _ hv, href⟩

/-- Readers in step that go on in step. The operators of what the first of them gives are to be
among those of the whole. -/
theorem bind {f f' : α × AtMost n → Taken β m} (hx : Follows d operators x x')
    (hf : ∀ a r h, Follows d operators' (f (a, ⟨r, h⟩)) (f' (a, ⟨r, h⟩)))
    (hops : ∀ a r, ∀ h : Gives x' a r, ∀ v rest, Gives (f' (a, ⟨r, h.length_le⟩)) v rest →
      operators a ⊆ operators' v) :
    Follows d operators' (x >>= f) (x' >>= f') where
  given hv := by
    obtain ⟨a, r, ha, hv⟩ := gives_bind.1 hv
    exact gives_bind.2 ⟨a, r, hx.given ha, (hf a r ha.length_le).given hv⟩
  taken hv := by
    obtain ⟨a, r, ha, hv⟩ := gives_bind.1 hv
    rcases hx.taken ha with ha' | ⟨op, hop, href⟩
    · rcases (hf a r ha.length_le).taken hv with hv' | ⟨op, hop, href⟩
      · exact .inl (gives_bind.2 ⟨a, r, ha', hv'⟩)
      · obtain ⟨_, rfl⟩ := ha'
        exact .inr ⟨op, hop, href⟩
    · exact .inr ⟨op, hops a r ha _ _ hv hop, href.bind f⟩

/-- One reader behind which two others go on in step. -/
theorem bind_left (x : Taken α n) {f f' : α × AtMost n → Taken β m}
    (hf : ∀ a r h, Follows d operators' (f (a, ⟨r, h⟩)) (f' (a, ⟨r, h⟩))) :
    Follows d operators' (x >>= f) (x >>= f') := by
  have hx : Follows d (fun _ ↦ []) x x := refl x
  exact hx.bind hf fun _ _ _ _ _ _ ↦ List.nil_subset _

/-- Two readers in step behind which the same one goes on. -/
theorem bind_right {f : α × AtMost n → Taken β m} (hx : Follows d operators x x')
    (hops : ∀ a r, ∀ h : Gives x' a r, ∀ v rest, Gives (f (a, ⟨r, h.length_le⟩)) v rest →
      operators a ⊆ operators' v) :
    Follows d operators' (x >>= f) (x' >>= f) :=
  hx.bind (fun a r h ↦ refl (f (a, ⟨r, h⟩))) hops

/-- Two readers in step, one behind the other. The operators of both values are to be among those
of the value made from them. -/
theorem pair {γ : Type} {operators'' : γ → List Operator} {k : Nat}
    {y y' : (r : List Char) → Taken β r.length} {g : α → β → γ} (hk : n ≤ k)
    (hx : Follows d operators x x')
    (hy : ∀ r : List Char, r.length ≤ n → Follows d operators' (y r) (y' r))
    (hfirst : ∀ a r b, Gives x' a r → operators a ⊆ operators'' (g a b))
    (hsecond : ∀ a b, operators' b ⊆ operators'' (g a b)) :
    Follows d operators''
      (do
        let (a, ⟨r₁, h₁⟩) ← x
        let (b, ⟨r₂, h₂⟩) ← y r₁
        return (g a b, ⟨r₂, Nat.le_trans h₂ (Nat.le_trans h₁ hk)⟩) : Taken γ k)
      (do
        let (a, ⟨r₁, h₁⟩) ← x'
        let (b, ⟨r₂, h₂⟩) ← y' r₁
        return (g a b, ⟨r₂, Nat.le_trans h₂ (Nat.le_trans h₁ hk)⟩)) := by
  apply hx.bind
  · intro a r₁ h₁
    apply (hy r₁ h₁).bind_right
    intro b r₂ _ v rest hv
    obtain ⟨rfl, _⟩ := gives_pure.1 hv
    exact hsecond a b
  · intro a r₁ ha v rest hv
    obtain ⟨b, r₂, _, hv⟩ := gives_bind.1 hv
    obtain ⟨rfl, _⟩ := gives_pure.1 hv
    exact hfirst a r₁ b ha

end Follows

end Lexeme

namespace Grammar

open Lexeme (Follows)

variable {d d' : Dialect}

/-- Comparison marks are read in step up to one that is left out. -/
theorem follows_comparisonMark (hd : d.Restricts d') (cs : List Char) :
    Follows d (fun op ↦ [.comparison op]) (comparisonMark d cs) (comparisonMark d' cs) := by
  unfold comparisonMark
  split
  · exact Follows.refl _
  · next c t =>
    split
    · exact Follows.refl _
    · next op hop =>
      by_cases hallows : d.allowsComparison op = true
      · have hallows' : d'.allowsComparison op = true := hd.allows (.comparison op) hallows
        rw [if_pos hallows, if_pos hallows']
        exact Follows.refl _
      · rw [if_neg hallows]
        have href : d.Refuses (.comparison op) (.error (.here (.unknownOperator c) (c :: t)) :
            Taken Comparison (c :: t).length) :=
          ⟨Bool.eq_false_iff.2 hallows, c, c :: t, t, Comparison.ofMark?_eq_some.1 hop, rfl⟩
        apply Follows.of_refuses href
        intro v rest hv
        split at hv
        · obtain ⟨rfl, _⟩ := gives_ok.1 hv
          exact List.mem_singleton_self _
        · exact absurd hv not_gives_error

/-- The expected side of a comparison is read alike. -/
theorem operand_eq (hd : d.Restricts d') (cs : List Char) : operand d cs = operand d' cs := by
  unfold operand
  rw [hd.allowsVariables]

/-- Plain arguments are read alike. -/
theorem plainArgument_eq (hd : d.Restricts d') (kind : ArgumentKind) (cs : List Char) :
    plainArgument d kind cs = plainArgument d' kind cs := by
  unfold plainArgument
  rw [hd.allowsVariables]

/-- Attribute tests are read in step up to a comparison that is left out. -/
theorem follows_attributeTest (hd : d.Restricts d') (cs : List Char) :
    Follows d AttributeTest.operators (attributeTest d cs) (attributeTest d' cs) := by
  unfold attributeTest
  apply Follows.bind_left
  intro name r₁ h₁
  dsimp only
  split
  · exact Follows.refl _
  · simp only [operand_eq hd]
    apply (follows_comparisonMark hd (skipBlank r₁)).bind_right
    intro op r₃ _ v rest hv
    obtain ⟨r₄, _, hv⟩ := gives_bind_expect.1 hv
    obtain ⟨value, r₅, _, hv⟩ := gives_bind.1 hv
    obtain ⟨r₆, _, hv⟩ := gives_bind_expect.1 hv
    obtain ⟨rfl, _⟩ := gives_pure.1 hv
    exact List.Subset.refl _

/-- A compound that is read keeps its operators where it becomes a link. -/
theorem subset_linksOperators {cs rest : List Char} {next : Compound}
    (h : Gives (compound d cs) next rest) (op : Combinator) (more : List Compound) :
    next.operators ⊆ Selector.linksOperators ({ next with combinator := some op } :: more) := by
  rw [Selector.linksOperators, Compound.operators_withCombinator (combinator_compound h)]
  exact List.subset_append_of_subset_left _ (List.subset_cons_self _ _)

-- The induction is the one of well-formedness: on the length of the text and, at the same length,
-- on how far up the grammar a reader stands.
mutual
/-- Alternatives are read in step. -/
theorem follows_chains (hd : d.Restricts d') (cs : List Char) :
    Follows d Selector.chainsOperators (chains d cs) (chains d' cs) := by
  have h₀ := Text.length_skipBlank_le cs
  rw [chains, chains]
  split
  · apply Follows.pair h₀ (follows_chain hd (skipBlank cs)) fun r _ ↦ follows_moreChains hd r
    · intro first r more _
      exact List.subset_append_left _ _
    · intro first more
      exact List.subset_append_right _ _
  · exact Follows.refl _
termination_by 6 * cs.length + 5

/-- Alternatives behind others are read in step. -/
theorem follows_moreChains (hd : d.Restricts d') (cs : List Char) :
    Follows d Selector.chainsOperators (moreChains d cs) (moreChains d' cs) := by
  by_cases hc : cs.head? = some ','
  · obtain ⟨t, ht⟩ := List.head?_eq_some_iff.1 hc
    have hlen : cs.length = t.length + 1 := by rw [ht, List.length_cons]
    have h₀ := Text.length_skipBlank_le t
    rw [ht, moreChains, moreChains]
    split
    · apply Follows.pair (Nat.le_succ_of_le h₀) (follows_chain hd (skipBlank t))
        fun r _ ↦ follows_moreChains hd r
      · intro next r more _
        exact List.subset_append_left _ _
      · intro next more
        exact List.subset_append_right _ _
    · exact Follows.refl _
  · have hne (t : List Char) (ht : cs = ',' :: t) : False := hc (by rw [ht]; rfl)
    rw [moreChains, moreChains]
    · exact Follows.refl _
    · exact hne
    · exact hne
termination_by 6 * cs.length + 4

/-- Chains are read in step. -/
theorem follows_chain (hd : d.Restricts d') (cs : List Char) :
    Follows d Selector.chainOperators (chain d cs) (chain d' cs) := by
  rw [chain, chain]
  apply Follows.pair (Nat.le_refl _) (follows_compound hd cs) fun r _ ↦ follows_links hd r
  · intro head r links _
    exact List.subset_append_left _ _
  · intro head links
    exact List.subset_append_right _ _
termination_by 6 * cs.length + 4

/-- Links are read in step up to a combinator that is left out. -/
theorem follows_links (hd : d.Restricts d') (cs : List Char) :
    Follows d Selector.linksOperators (links d cs) (links d' cs) := by
  have h₀ := Text.length_skipBlank_le cs
  rw [links, links]
  split
  · exact Follows.refl _
  · next c t h =>
    have hlen : t.length + 1 ≤ cs.length := by rwa [h] at h₀
    have h₁ := Text.length_skipBlank_le t
    split
    · exact Follows.refl _
    · split
      · next op hop =>
        extract_lets
        by_cases hallows : d.allowsCombinator op = true
        · have hallows' : d'.allowsCombinator op = true := hd.allows (.combinator op) hallows
          have hpass : ¬(!d.allowsCombinator op) = true := by simp [hallows]
          have hpass' : ¬(!d'.allowsCombinator op) = true := by simp [hallows']
          rw [if_neg hpass, if_neg hpass']
          split
          · have hlen' : (skipBlank t).length ≤ cs.length := by omega
            apply Follows.pair (g := fun next more ↦ { next with combinator := some op } :: more)
              hlen' (follows_compound hd (skipBlank t)) fun r _ ↦ follows_links hd r
            · intro next r more hnext
              exact subset_linksOperators hnext op more
            · intro next more
              exact List.subset_append_right _ _
          · exact Follows.refl _
        · have hrefuses : d.allowsCombinator op = false := Bool.eq_false_iff.2 hallows
          rw [if_pos (by simp [hrefuses])]
          have href : d.Refuses (.combinator op)
              (.error (.here (.unknownOperator c) (c :: t)) : Taken (List Compound) cs.length) :=
            ⟨hrefuses, c, c :: t, t, Combinator.ofMark?_eq_some.1 hop, rfl⟩
          apply Follows.of_refuses href
          intro v rest hv
          split at hv
          · exact absurd hv not_gives_error
          · split at hv
            · obtain ⟨next, r₁, hnext, hv⟩ := gives_bind.1 hv
              obtain ⟨more, r₂, _, hv⟩ := gives_bind.1 hv
              obtain ⟨rfl, _⟩ := gives_pure.1 hv
              rw [Selector.linksOperators,
                Compound.operators_withCombinator (combinator_compound hnext)]
              exact List.mem_append_left _ List.mem_cons_self
            · exact absurd hv not_gives_error
      · split
        · split
          · next hlt =>
            apply Follows.pair
              (g := fun next more ↦ { next with combinator := some .descendant } :: more)
              (Nat.le_of_lt hlt) (follows_compound hd (c :: t)) fun r _ ↦ follows_links hd r
            · intro next r more hnext
              exact subset_linksOperators hnext .descendant more
            · intro next more
              exact List.subset_append_right _ _
          · apply (follows_compound hd (c :: t)).bind_right
            intro next r₁ _ v rest hv
            exact absurd hv not_gives_error
        · exact Follows.refl _
termination_by 6 * cs.length + 3

/-- Compounds are read in step. -/
theorem follows_compound (hd : d.Restricts d') (cs : List Char) :
    Follows d Compound.operators (compound d cs) (compound d' cs) := by
  rw [compound, compound]
  apply Follows.bind_left
  intro type r₁ h₁
  apply (follows_parts hd r₁).bind_right
  intro ps r₂ _ v rest hv op hop
  obtain ⟨rfl, _⟩ := gives_pure.1 hv
  obtain ⟨p, hp, hop⟩ := List.mem_flatMap.1 hop
  exact Compound.mem_operators_ofParts.2 ⟨p, hp, hop⟩
termination_by 6 * cs.length + 2

/-- Parts are read in step. -/
theorem follows_parts (hd : d.Restricts d') (cs : List Char) :
    Follows d (List.flatMap Part.operators) (parts d cs) (parts d' cs) := by
  have hmore (r : List Char) (hlt : r.length < cs.length) :
      Follows d (List.flatMap Part.operators) (parts d r) (parts d' r) := follows_parts hd r
  have hpseudo (t : List Char) (hlt : t.length < cs.length) :
      Follows d PseudoClass.operators (pseudoClass d t) (pseudoClass d' t) :=
    follows_pseudoClass hd t
  have hname (mark : Char) (t : List Char) : Follows d (fun _ ↦ [])
      (Lexeme.requiredName mark t) (Lexeme.requiredName mark t) := Follows.refl _
  rw [parts.eq_def, parts.eq_def]
  split
  · next t =>
    apply Follows.pair (g := fun name more ↦ .className name :: more) (Nat.le_succ _)
      (hname '.' t) fun r hr ↦ hmore r (Nat.lt_succ_of_le hr)
    · intro name r more _
      exact List.nil_subset _
    · intro name more
      exact List.subset_append_right _ _
  · next t =>
    apply Follows.pair (g := fun name more ↦ .id name :: more) (Nat.le_succ _)
      (hname '#' t) fun r hr ↦ hmore r (Nat.lt_succ_of_le hr)
    · intro name r more _
      exact List.nil_subset _
    · intro name more
      exact List.subset_append_right _ _
  · next t =>
    apply Follows.pair (g := fun test more ↦ .attr test :: more) (Nat.le_succ _)
      (follows_attributeTest hd t) fun r hr ↦ hmore r (Nat.lt_succ_of_le hr)
    · intro test r more _
      exact List.subset_append_left _ _
    · intro test more
      exact List.subset_append_right _ _
  · next t =>
    apply Follows.pair (g := fun test more ↦ .pseudo test :: more) (Nat.le_succ _)
      (hpseudo t (Nat.lt_succ_self _)) fun r hr ↦ hmore r (Nat.lt_succ_of_le hr)
    · intro test r more _
      exact List.subset_append_left _ _
    · intro test more
      exact List.subset_append_right _ _
  · exact Follows.refl _
termination_by 6 * cs.length + 1

/-- Pseudo-classes are read in step. -/
theorem follows_pseudoClass (hd : d.Restricts d') (cs : List Char) :
    Follows d PseudoClass.operators (pseudoClass d cs) (pseudoClass d' cs) := by
  rw [pseudoClass, pseudoClass]
  apply Follows.bind_left
  intro name r₁ h₁
  dsimp only
  rw [hd.argumentKind name]
  split
  · next t =>
    have h₂ := Text.length_skipBlank_le t
    have hlen : t.length + 1 ≤ cs.length := h₁
    split
    · apply (follows_chains hd (skipBlank t)).bind_right
      intro alternatives r₂ _ v rest hv
      obtain ⟨r₃, _, hv⟩ := gives_bind_expect.1 hv
      obtain ⟨rfl, _⟩ := gives_pure.1 hv
      rw [PseudoClass.operators, Argument.operators, Selector.operators_ofChains]
      exact List.Subset.refl _
    · rw [plainArgument_eq hd]
      exact Follows.refl _
  · exact Follows.refl _
termination_by 6 * cs.length
end

/-- Selectors are read in step by two dialects, up to an operator that the narrower one refuses. -/
theorem selector_restricts (hd : d.Restricts d') (cs : List Char) {s : Selector} :
    (selector d cs = .ok s → selector d' cs = .ok s) ∧
      (selector d' cs = .ok s →
        selector d cs = .ok s ∨ ∃ op ∈ s.operators, d.Refuses op (selector d cs)) := by
  have hchains := follows_chains hd cs
  constructor
  · intro h
    obtain ⟨alternatives, hgives, hs⟩ := selector_eq_ok.1 h
    exact selector_eq_ok.2 ⟨alternatives, hchains.given hgives, hs⟩
  · intro h
    obtain ⟨alternatives, hgives, rfl⟩ := selector_eq_ok.1 h
    rcases hchains.taken hgives with hgives | ⟨op, hop, href⟩
    · exact .inl (selector_eq_ok.2 ⟨alternatives, hgives, rfl⟩)
    · refine .inr ⟨op, ?_, href.bind _⟩
      rwa [Selector.operators_ofChains]

end Grammar

namespace Selector

variable {d d' : Dialect}

/-- Leaving operators out of a dialect leaves out of its language the selectors with one of these
operators, and no others. A text of such a selector is refused at one of these operators; the text
of any other selector is read as it was. -/
theorem parse_of_restricts (hd : d.Restricts d') (text : String) (s : Selector) :
    (Selector.parse d text = .ok s → Selector.parse d' text = .ok s) ∧
    (Selector.parse d' text = .ok s →
      ((∀ op ∈ s.operators, d.allows op = true) → Selector.parse d text = .ok s) ∧
      ((∃ op ∈ s.operators, d.allows op = false) → ∃ op ∈ s.operators, d.allows op = false ∧
        ∃ c span, op.mark? = some c ∧
          Selector.parse d text = .error ⟨.unknownOperator c, span⟩)) := by
  obtain ⟨hgiven, htaken⟩ := Grammar.selector_restricts hd text.toList (s := s)
  refine ⟨fun h ↦ parse_eq_ok.2 (hgiven (parse_eq_ok.1 h)), fun h ↦ ?_⟩
  constructor
  · intro hall
    rcases htaken (parse_eq_ok.1 h) with h | ⟨op, hop, href⟩
    · exact parse_eq_ok.2 h
    · have hrefuses := href.1
      rw [hall op hop] at hrefuses
      cases hrefuses
  · rintro ⟨op, hop, hrefuses⟩
    rcases htaken (parse_eq_ok.1 h) with h | ⟨op', hop', hd, c, start, stop, hc, he⟩
    · have hallows := allows_of_wellFormed s (wellFormed_parse (parse_eq_ok.2 h)) op hop
      rw [hallows] at hrefuses
      cases hrefuses
    · exact ⟨op', hop', hd, c, _, hc, parse_eq_error.2 ⟨_, he, rfl⟩⟩

/-- Without `*=` and `~` in the dialect, a text that uses both at different depths is refused at one
of them. -/
theorem parse_of_restricts_nested :
    let d := Dialect.document.withoutComparisons [.contains] |>.withoutCombinators [.laterSibling]
    let e : Compound := ⟨some (.named "e"), none, [], [], [], some .laterSibling⟩
    let a : Compound := ⟨none, none, [], [⟨"c", some (.contains, .text "d")⟩], [], none⟩
    let s : Selector := .chain ⟨⟨some (.named "a"), none, [], [], [], none⟩,
      [⟨some (.named "b"), none, [], [], [⟨"not", .selector (.chain ⟨a, [e]⟩)⟩], some .child⟩]⟩
    d.Restricts .document ∧ Selector.parse .document "a > b:not([c*='d'] ~ e)" = .ok s ∧
      ∃ op ∈ s.operators, d.allows op = false ∧ ∃ c span, op.mark? = some c ∧
        Selector.parse d "a > b:not([c*='d'] ~ e)" = .error ⟨.unknownOperator c, span⟩ := by
  intro d e a s
  have hd : d.Restricts .document := by
    refine ⟨fun _ ↦ rfl, rfl, fun op _ ↦ ?_⟩
    cases op with
    | combinator op => cases op <;> rfl
    | comparison op => cases op <;> rfl
  have h : Selector.parse .document "a > b:not([c*='d'] ~ e)" = .ok s := by cbv
  have huses : ∃ op ∈ s.operators, d.allows op = false := by
    refine ⟨.comparison .contains, ?_, rfl⟩
    simp [s, a, e, operators, chainOperators, linksOperators, Compound.operators,
      PseudoClass.allOperators, PseudoClass.operators, Argument.operators,
      AttributeTest.operators]
  exact ⟨hd, h, ((parse_of_restricts hd _ s).2 h).2 huses⟩

end Selector

end DocSelect
