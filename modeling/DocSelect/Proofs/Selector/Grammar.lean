import DocSelect.Proofs.Selector.Reading

/-!
# What the readers of the grammar give

Each reader of the grammar is taken apart by one equivalence, in terms of what the readers that
it calls give. The two directions are the two halves of the theory of the grammar: what a read
selector looks like, and how a written selector is read back.
-/

namespace DocSelect.Grammar

open Text (AtMost skipBlank)
open Lexeme (Gives Taken gives_ok gives_pure gives_bind not_gives_error)

/-- An expected character is the next one. -/
theorem expect_eq_ok {c : Char} {cs : List Char} {r : AtMost cs.length} :
    expect c cs = .ok r ↔ cs = c :: r.1 := by
  unfold expect
  split
  · simp
  · next found t =>
    split
    · next h =>
      subst h
      rw [Except.ok.injEq]
      constructor
      · rintro rfl
        rfl
      · intro h
        exact Subtype.ext (List.cons.inj h).2
    · next h =>
      simp only [reduceCtorEq, false_iff]
      intro he
      exact h (List.cons.inj he).1

/-- The text behind a character is no longer than the text. -/
theorem length_le_of_eq_cons {c : Char} {cs t : List Char} (h : cs = c :: t) :
    t.length ≤ cs.length := by
  rw [h]
  exact Nat.le_succ t.length

/-- A reader that goes on behind an expected character. -/
theorem gives_bind_expect {α : Type} {n : Nat} {c : Char} {cs : List Char}
    {f : AtMost cs.length → Taken α n} {v : α} {rest : List Char} :
    Gives (expect c cs >>= f) v rest ↔
      ∃ t, ∃ h : cs = c :: t, Gives (f ⟨t, length_le_of_eq_cons h⟩) v rest := by
  constructor
  · rintro ⟨h, he⟩
    obtain ⟨⟨t, _⟩, ht, he⟩ := Outcome.bind_eq_ok.1 he
    exact ⟨t, expect_eq_ok.1 ht, h, he⟩
  · rintro ⟨t, ht, h, he⟩
    exact ⟨h, Outcome.bind_eq_ok.2 ⟨_, expect_eq_ok.2 ht, he⟩⟩

/-- Whether a type test by name begins here. -/
def startsName (cs : List Char) : Bool := cs.head?.any fun c ↦ Lexeme.isNameStart c || c = '\\'

/-- A compound begins with a star, with a name, or with no type test. -/
theorem gives_typeTest {cs rest : List Char} {v : Option TypeTest} :
    Gives (typeTest cs) v rest ↔
      cs = '*' :: rest ∧ v = some .any ∨
      startsName cs = true ∧ (∃ chars, Gives (Lexeme.name cs) chars rest ∧
        v = some (.named (String.ofList chars))) ∨
      cs.head? ≠ some '*' ∧ startsName cs = false ∧ v = none ∧ rest = cs := by
  unfold typeTest
  split
  · simp [startsName]
  · next t =>
    have hstar : startsName ('*' :: t) = false := rfl
    simp [hstar, and_comm, eq_comm]
  · next c t hc =>
    have hne : c ≠ '*' := fun h ↦ hc h
    by_cases hs : startsName (c :: t) = true
    · have hs' : (Lexeme.isNameStart c || decide (c = '\\')) = true := hs
      rw [if_pos hs']
      simp only [gives_bind, gives_pure, exists_prop, exists_eq_right_right']
      simp [hs, hne]
    · have hs' : ¬(Lexeme.isNameStart c || decide (c = '\\')) = true := hs
      rw [if_neg hs', gives_ok]
      simp [hs, hne]

/-- A comparison is written with a mark that it alone has, or it is equality and has none. -/
theorem cons_eq_mark {c : Char} {u t : List Char} {op : Comparison} :
    c :: u = op.mark?.toList ++ '=' :: t ↔
      Comparison.ofMark? c = some op ∧ u = '=' :: t ∨ op = .equals ∧ c = '=' ∧ u = t := by
  rw [Comparison.ofMark?_eq_some]
  cases op with
  | equals => simp [Comparison.mark?]
  | _ => simp [Comparison.mark?, eq_comm]

/-- In front of an equals sign stands the mark of a comparison that the dialect allows. -/
theorem gives_comparisonMark {d : Dialect} {cs t : List Char} {op : Comparison} :
    Gives (comparisonMark d cs) op ('=' :: t) ↔
      cs = op.mark?.toList ++ '=' :: t ∧ d.allowsComparison op = true := by
  unfold comparisonMark
  cases cs with
  | nil => cases op <;> simp [Comparison.mark?]
  | cons c u =>
    rw [cons_eq_mark]
    cases hop : Comparison.ofMark? c with
    | none =>
      simp only [hop, gives_ok, reduceCtorEq, false_and, false_or]
      constructor
      · rintro ⟨rfl, h⟩
        obtain ⟨rfl, rfl⟩ := List.cons.inj h
        exact ⟨⟨rfl, rfl, rfl⟩, rfl⟩
      · rintro ⟨⟨rfl, rfl, rfl⟩, _⟩
        exact ⟨rfl, rfl⟩
    | some op' =>
      have hne : c ≠ '=' := by
        rintro rfl
        cases hop
      simp only [hop, Option.some.injEq, hne, false_and, and_false, or_false]
      constructor
      · intro h
        split at h
        · next hd =>
          obtain ⟨rfl, rfl⟩ := gives_ok.1 h
          exact ⟨⟨rfl, rfl⟩, hd⟩
        · exact absurd h not_gives_error
      · rintro ⟨⟨rfl, rfl⟩, hd⟩
        rw [if_pos hd, gives_ok]
        exact ⟨rfl, rfl⟩

/-- Whether neither a string nor a variable begins here. -/
def startsRaw (d : Dialect) (cs : List Char) : Bool :=
  cs.head?.all fun c ↦ c ≠ '"' && c ≠ '\'' && !(c == '$' && d.allowsVariables)

private theorem startsRaw_of_ne {d : Dialect} {cs : List Char} (h₁ : ∀ t, cs ≠ '"' :: t)
    (h₂ : ∀ t, cs ≠ '\'' :: t) (h₃ : ∀ t, cs ≠ '$' :: t) : startsRaw d cs = true := by
  cases cs with
  | nil => rfl
  | cons c t =>
    have hc₁ : c ≠ '"' := fun h ↦ h₁ t (by rw [h])
    have hc₂ : c ≠ '\'' := fun h ↦ h₂ t (by rw [h])
    have hc₃ : c ≠ '$' := fun h ↦ h₃ t (by rw [h])
    simp [startsRaw, hc₁, hc₂, hc₃]

private theorem not_exists_quoted {cs : List Char} {P : Char → List Char → String → Prop}
    (h₁ : ∀ t, cs ≠ '"' :: t) (h₂ : ∀ t, cs ≠ '\'' :: t) :
    ¬ ∃ q t s, (q = '"' ∨ q = '\'') ∧ cs = q :: t ∧ P q t s := by
  rintro ⟨q, t, s, rfl | rfl, he, _⟩
  · exact h₁ t he
  · exact h₂ t he

private theorem not_exists_variable {cs : List Char} {P : List Char → String → Prop}
    (h₃ : ∀ t, cs ≠ '$' :: t) : ¬ ∃ t s, cs = '$' :: t ∧ P t s := by
  rintro ⟨t, s, he, _⟩
  exact h₃ t he

/-- The argument that a text is for a pseudo-class whose argument has a kind. -/
def plain (kind : ArgumentKind) (s : String) : Argument :=
  if kind = .formula then .formula s else .text s

/-- The expected side of a comparison is a string, a variable or raw text. -/
theorem gives_operand {d : Dialect} {cs rest : List Char} {v : Operand} :
    Gives (operand d cs) v rest ↔
      (∃ q t s, (q = '"' ∨ q = '\'') ∧ cs = q :: t ∧ Gives (Lexeme.string q t) s rest ∧
        v = .text s) ∨
      (∃ t s, cs = '$' :: t ∧ d.allowsVariables = true ∧
        Gives (Lexeme.requiredName '$' t) s rest ∧ v = .variable s) ∨
      startsRaw d cs = true ∧ v = .text (Lexeme.rawValue cs).1 ∧
        rest = (Lexeme.rawValue cs).2.1 := by
  unfold operand
  split
  · next t =>
    simp only [gives_bind, gives_pure, exists_prop, exists_eq_right_right']
    simp [startsRaw]
  · next t =>
    simp only [gives_bind, gives_pure, exists_prop, exists_eq_right_right']
    simp [startsRaw]
  · next t =>
    cases hd : d.allowsVariables with
    | true =>
      simp only [if_true, gives_bind, gives_pure, exists_prop, Text.AtMost.val_behind,
        exists_eq_right_right']
      simp [startsRaw, hd]
    | false =>
      simp only [Bool.false_eq_true, if_false, gives_ok]
      simp [startsRaw, hd]
  · next h₁ h₂ h₃ =>
    have hraw : startsRaw d cs = true := startsRaw_of_ne h₁ h₂ h₃
    simp only [gives_ok, hraw, not_exists_quoted h₁ h₂, not_exists_variable h₃, false_or, true_and]

/-- A plain argument is a string, a variable or raw text. -/
theorem gives_plainArgument {d : Dialect} {kind : ArgumentKind} {cs rest : List Char}
    {v : Argument} :
    Gives (plainArgument d kind cs) v rest ↔
      (∃ q t s, (q = '"' ∨ q = '\'') ∧ cs = q :: t ∧ Gives (Lexeme.string q t) s rest ∧
        v = plain kind s) ∨
      (∃ t s, cs = '$' :: t ∧ d.allowsVariables = true ∧
        Gives (Lexeme.requiredName '$' t) s rest ∧ v = .variable s) ∨
      startsRaw d cs = true ∧ ∃ s, Gives (Lexeme.rawArgument cs) s rest ∧ v = plain kind s := by
  have hplain (s : String) :
      (if kind = .formula then Argument.formula s else .text s) = plain kind s := rfl
  simp only [plainArgument, hplain]
  split
  · next t =>
    simp only [gives_bind, gives_pure, exists_prop, exists_eq_right_right']
    simp [startsRaw]
  · next t =>
    simp only [gives_bind, gives_pure, exists_prop, exists_eq_right_right']
    simp [startsRaw]
  · next t =>
    cases hd : d.allowsVariables with
    | true =>
      simp only [if_true, gives_bind, gives_pure, exists_prop, Text.AtMost.val_behind,
        exists_eq_right_right']
      simp [startsRaw, hd]
    | false =>
      simp only [Bool.false_eq_true, if_false, gives_bind, gives_pure, exists_prop,
        exists_eq_right_right']
      simp [startsRaw, hd]
  · next h₁ h₂ h₃ =>
    have hraw : startsRaw d cs = true := startsRaw_of_ne h₁ h₂ h₃
    simp only [gives_bind, gives_pure, exists_prop, exists_eq_right_right', hraw,
      not_exists_quoted h₁ h₂, not_exists_variable h₃, false_or, true_and]

/-- An attribute test is a name alone, or a name with a comparison. -/
theorem gives_attributeTest {d : Dialect} {cs rest : List Char} {v : AttributeTest} :
    Gives (attributeTest d cs) v rest ↔
      ∃ name r₁, Gives (Lexeme.requiredName '[' (skipBlank cs)) name r₁ ∧
        (skipBlank r₁ = ']' :: rest ∧ v = ⟨name, none⟩ ∨
        ∃ op r₄ value r₅, Gives (comparisonMark d (skipBlank r₁)) op ('=' :: r₄) ∧
          Gives (operand d (skipBlank r₄)) value r₅ ∧ skipBlank r₅ = ']' :: rest ∧
          v = ⟨name, some (op, value)⟩) := by
  unfold attributeTest
  simp only [gives_bind]
  constructor
  · rintro ⟨name, r₁, hname, h⟩
    refine ⟨name, r₁, hname, ?_⟩
    split at h
    · next t ht =>
      obtain ⟨rfl, rfl⟩ := gives_pure.1 h
      exact .inl ⟨ht, rfl⟩
    · obtain ⟨op, r₃, hop, h⟩ := gives_bind.1 h
      obtain ⟨r₄, hr₄, h⟩ := gives_bind_expect.1 h
      obtain rfl : r₃ = '=' :: r₄ := hr₄
      obtain ⟨value, r₅, hvalue, h⟩ := gives_bind.1 h
      obtain ⟨r₆, hr₆, h⟩ := gives_bind_expect.1 h
      obtain ⟨rfl, rfl⟩ := gives_pure.1 h
      exact .inr ⟨op, r₄, value, r₅, hop, hvalue, hr₆, rfl⟩
  · rintro ⟨name, r₁, hname, h⟩
    refine ⟨name, r₁, hname, ?_⟩
    split
    · next t ht =>
      rcases h with ⟨ht', rfl⟩ | ⟨op, r₄, _, _, hop, _⟩
      · rw [ht] at ht'
        exact gives_pure.2 ⟨rfl, (List.cons.inj ht').2.symm⟩
      · rw [ht, gives_comparisonMark] at hop
        cases op with
        | _ => cases hop.1
    · next hne =>
      rcases h with ⟨ht, _⟩ | ⟨op, r₄, value, r₅, hop, hvalue, hr₅, rfl⟩
      · exact absurd ht (hne rest)
      · refine gives_bind.2 ⟨op, _, hop, gives_bind_expect.2 ⟨r₄, rfl, ?_⟩⟩
        refine gives_bind.2 ⟨value, r₅, hvalue, gives_bind_expect.2 ⟨rest, hr₅, ?_⟩⟩
        exact gives_pure.2 ⟨rfl, rfl⟩

section Rules

variable {d : Dialect} {cs rest : List Char}

/-- Alternatives are none, or a first one and those behind it. -/
theorem gives_chains {v : List (Chain Compound)} :
    Gives (chains d cs) v rest ↔
      startsCompound (skipBlank cs) = false ∧ v = [] ∧ rest = skipBlank cs ∨
      startsCompound (skipBlank cs) = true ∧ ∃ first r more,
        Gives (chain d (skipBlank cs)) first r ∧ Gives (moreChains d r) more rest ∧
          v = first :: more := by
  rw [chains]
  cases hs : startsCompound (skipBlank cs) with
  | false =>
    simp only [Bool.false_eq_true, if_false, gives_ok, true_and, false_and, or_false]
  | true =>
    simp only [if_true, gives_bind, gives_pure, exists_prop, exists_and_left,
      exists_eq_right_right', Bool.true_eq_false, false_and, true_and, false_or]

/-- Behind a comma stands another alternative. -/
theorem gives_moreChains_comma {v : List (Chain Compound)} :
    Gives (moreChains d (',' :: cs)) v rest ↔
      startsCompound (skipBlank cs) = true ∧ ∃ next r, Gives (chain d (skipBlank cs)) next r ∧
        ∃ more, Gives (moreChains d r) more rest ∧ v = next :: more := by
  rw [moreChains]
  cases hs : startsCompound (skipBlank cs) with
  | false =>
    simp only [Bool.false_eq_true, if_false, not_gives_error, false_and]
  | true =>
    simp only [if_true, gives_bind, gives_pure, exists_prop, exists_eq_right_right', true_and]

/-- Without a comma there is no other alternative. -/
theorem gives_moreChains_stop {v : List (Chain Compound)} (h : cs.head? ≠ some ',') :
    Gives (moreChains d cs) v rest ↔ v = [] ∧ rest = cs := by
  rw [moreChains]
  · exact gives_ok
  · intro t ht
    rw [ht] at h
    exact h rfl

/-- A chain is a head and its links. -/
theorem gives_chain {v : Chain Compound} :
    Gives (chain d cs) v rest ↔
      ∃ head r links', Gives (compound d cs) head r ∧ Gives (links d r) links' rest ∧
        v = ⟨head, links'⟩ := by
  rw [chain]
  simp only [gives_bind, gives_pure, exists_prop, exists_and_left, exists_eq_right_right']

private theorem not_startsCompound_of_mark {c : Char} {op : Combinator} (h : op.mark? = some c)
    (t : List Char) : startsCompound (c :: t) = false := by
  cases op with
  | descendant => cases h
  | _ =>
    obtain rfl := Option.some.inj h
    rfl

private theorem ofMark?_of_startsCompound {c : Char} {t : List Char}
    (h : startsCompound (c :: t) = true) : Combinator.ofMark? c = none := by
  cases hop : Combinator.ofMark? c with
  | none => rfl
  | some op =>
    rw [not_startsCompound_of_mark (Combinator.ofMark?_eq_some.1 hop) t] at h
    cases h

private theorem closes_eq_false {c : Char} {t : List Char}
    (h : startsCompound (c :: t) = true ∨ (Combinator.ofMark? c).isSome = true) :
    (decide (c = ',') || decide (c = ')')) = false := by
  cases hc : decide (c = ',') || decide (c = ')') with
  | false => rfl
  | true =>
    rcases Bool.or_eq_true_iff.1 hc with hc | hc
    · obtain rfl := of_decide_eq_true hc
      rcases h with h | h <;> cases h
    · obtain rfl := of_decide_eq_true hc
      rcases h with h | h <;> cases h

/-- A chain ends in front of what neither begins a compound nor marks a combinator. -/
theorem gives_links_stop {v : List Compound} (hs : startsCompound (skipBlank cs) = false)
    (hm : (skipBlank cs).head?.bind Combinator.ofMark? = none) :
    Gives (links d cs) v rest ↔ v = [] ∧ rest = skipBlank cs := by
  rw [links]
  split
  · next h =>
    rw [h]
    exact gives_ok
  · next c t h =>
    rw [h] at hs hm
    have hop : Combinator.ofMark? c = none := hm
    simp only [hop, hs, Bool.false_eq_true, if_false]
    split
    · simp only [gives_ok, h]
    · simp only [gives_ok, h]

/-- A chain goes on behind the mark of a combinator. -/
theorem gives_links_mark {v : List Compound} {c : Char} {t : List Char} {op : Combinator}
    (h : skipBlank cs = c :: t) (hop : Combinator.ofMark? c = some op) :
    Gives (links d cs) v rest ↔
      d.allowsCombinator op = true ∧ startsCompound (skipBlank t) = true ∧
        ∃ next r, Gives (compound d (skipBlank t)) next r ∧
          ∃ more, Gives (links d r) more rest ∧
            v = { next with combinator := some op } :: more := by
  rw [links]
  split
  · next hnil =>
    rw [hnil] at h
    cases h
  · next c' t' h' =>
    rw [h'] at h
    obtain ⟨rfl, rfl⟩ := List.cons.inj h
    have hc := closes_eq_false (c := c') (t := t') (.inr (by rw [hop]; rfl))
    simp only [hc, hop, Bool.false_eq_true, if_false]
    cases hd : d.allowsCombinator op with
    | false =>
      simp only [Bool.not_false, if_true, not_gives_error, Bool.false_eq_true, false_and]
    | true =>
      cases hs : startsCompound (skipBlank t') with
      | false =>
        simp only [Bool.not_true, Bool.false_eq_true, if_false, not_gives_error, false_and,
          and_false]
      | true =>
        simp only [Bool.not_true, Bool.false_eq_true, if_false, if_true, gives_bind, gives_pure,
          exists_prop, exists_eq_right_right', true_and]

/-- A chain goes on behind blanks. -/
theorem gives_links_blank {v : List Compound} {c : Char} {t : List Char}
    (h : skipBlank cs = c :: t) (hs : startsCompound (c :: t) = true) :
    Gives (links d cs) v rest ↔
      (c :: t).length < cs.length ∧ ∃ next r, Gives (compound d (c :: t)) next r ∧
        ∃ more, Gives (links d r) more rest ∧
          v = { next with combinator := some .descendant } :: more := by
  rw [links]
  split
  · next hnil =>
    rw [hnil] at h
    cases h
  · next c' t' h' =>
    rw [h'] at h
    obtain ⟨rfl, rfl⟩ := List.cons.inj h
    have hc := closes_eq_false (.inl hs)
    have hop := ofMark?_of_startsCompound hs
    simp only [hc, hop, hs, Bool.false_eq_true, if_false, if_true]
    split
    · next hlt =>
      simp only [gives_bind, gives_pure, exists_prop, exists_eq_right_right', hlt, true_and]
    · next hlt =>
      simp only [gives_bind, not_gives_error, exists_false, hlt, false_and]

/-- A compound is a type test, which may be missing, and parts. -/
theorem gives_compound {v : Compound} :
    Gives (compound d cs) v rest ↔
      ∃ type r ps, Gives (typeTest cs) type r ∧ Gives (parts d r) ps rest ∧
        v = .ofParts type ps := by
  rw [compound]
  simp only [gives_bind, gives_pure, exists_prop, exists_and_left, exists_eq_right_right']

/-- One part of a compound, from its mark on. -/
inductive GivesPart (d : Dialect) : List Char → Part → List Char → Prop
  | className {t name r} : Gives (Lexeme.requiredName '.' t) name r →
    GivesPart d ('.' :: t) (.className name) r
  | id {t name r} : Gives (Lexeme.requiredName '#' t) name r → GivesPart d ('#' :: t) (.id name) r
  | attr {t test r} : Gives (attributeTest d t) test r → GivesPart d ('[' :: t) (.attr test) r
  | pseudo {t test r} : Gives (pseudoClass d t) test r → GivesPart d (':' :: t) (.pseudo test) r

/-- Whether no part begins here. -/
def endsParts (cs : List Char) : Bool :=
  cs.head?.all fun c ↦ c ≠ '.' && c ≠ '#' && c ≠ '[' && c ≠ ':'

/-- No parts begin in front of any other character. -/
theorem gives_parts_stop {v : List Part} (h : endsParts cs = true) :
    Gives (parts d cs) v rest ↔ v = [] ∧ rest = cs := by
  rw [parts.eq_def]
  split
  · cases h
  · cases h
  · cases h
  · cases h
  · exact gives_ok

/-- A part is followed by more parts. -/
theorem gives_parts_cons {v : List Part} (h : endsParts cs = false) :
    Gives (parts d cs) v rest ↔
      ∃ p r, GivesPart d cs p r ∧ ∃ more, Gives (parts d r) more rest ∧ v = p :: more := by
  rw [parts.eq_def]
  split
  · next t =>
    simp only [gives_bind, gives_pure, exists_prop, exists_eq_right_right']
    constructor
    · rintro ⟨name, r, hname, h⟩
      exact ⟨.className name, r, .className hname, h⟩
    · rintro ⟨p, r, hp, h⟩
      cases hp with
      | className hname => exact ⟨_, r, hname, h⟩
  · next t =>
    simp only [gives_bind, gives_pure, exists_prop, exists_eq_right_right']
    constructor
    · rintro ⟨name, r, hname, h⟩
      exact ⟨.id name, r, .id hname, h⟩
    · rintro ⟨p, r, hp, h⟩
      cases hp with
      | id hname => exact ⟨_, r, hname, h⟩
  · next t =>
    simp only [gives_bind, gives_pure, exists_prop, exists_eq_right_right']
    constructor
    · rintro ⟨test, r, htest, h⟩
      exact ⟨.attr test, r, .attr htest, h⟩
    · rintro ⟨p, r, hp, h⟩
      cases hp with
      | attr htest => exact ⟨_, r, htest, h⟩
  · next t =>
    simp only [gives_bind, gives_pure, exists_prop, exists_eq_right_right']
    constructor
    · rintro ⟨test, r, htest, h⟩
      exact ⟨.pseudo test, r, .pseudo htest, h⟩
    · rintro ⟨p, r, hp, h⟩
      cases hp with
      | pseudo htest => exact ⟨_, r, htest, h⟩
  · next h₁ h₂ h₃ h₄ =>
    cases cs with
    | nil => cases h
    | cons c t =>
      have hne : endsParts (c :: t) = true := by
        have hc₁ : c ≠ '.' := fun h ↦ h₁ t (by rw [h])
        have hc₂ : c ≠ '#' := fun h ↦ h₂ t (by rw [h])
        have hc₃ : c ≠ '[' := fun h ↦ h₃ t (by rw [h])
        have hc₄ : c ≠ ':' := fun h ↦ h₄ t (by rw [h])
        simp [endsParts, hc₁, hc₂, hc₃, hc₄]
      rw [hne] at h
      cases h

/-- A pseudo-class is a name with no parentheses, with a selector or with a plain argument
between them. -/
theorem gives_pseudoClass {v : PseudoClass} :
    Gives (pseudoClass d cs) v rest ↔
      ∃ name r, Gives (Lexeme.requiredName ':' cs) name r ∧
        (r.head? ≠ some '(' ∧ v = ⟨name, .none⟩ ∧ rest = r ∨
        (∃ t alternatives, r = '(' :: t ∧ d.argumentKind name = .selector ∧
          Gives (chains d (skipBlank t)) alternatives (')' :: rest) ∧
          v = ⟨name, .selector (.ofChains alternatives)⟩) ∨
        ∃ t argument r₂, r = '(' :: t ∧ d.argumentKind name ≠ .selector ∧
          Gives (plainArgument d (d.argumentKind name) (skipBlank t)) argument r₂ ∧
          skipBlank r₂ = ')' :: rest ∧ v = ⟨name, argument⟩) := by
  rw [pseudoClass]
  simp only [gives_bind]
  constructor
  · rintro ⟨name, r, hname, h⟩
    refine ⟨name, r, hname, ?_⟩
    split at h
    · next t =>
      split at h
      · next hkind =>
        obtain ⟨alternatives, r₂, hchains, h⟩ := gives_bind.1 h
        obtain ⟨r₃, hr₃, h⟩ := gives_bind_expect.1 h
        obtain ⟨rfl, rfl⟩ := gives_pure.1 h
        obtain rfl : r₂ = ')' :: rest := hr₃
        exact .inr (.inl ⟨t, alternatives, rfl, hkind, hchains, rfl⟩)
      · next hkind =>
        obtain ⟨argument, r₂, hargument, h⟩ := gives_bind.1 h
        obtain ⟨r₃, hr₃, h⟩ := gives_bind_expect.1 h
        obtain ⟨rfl, rfl⟩ := gives_pure.1 h
        exact .inr (.inr ⟨t, argument, r₂, rfl, hkind, hargument, hr₃, rfl⟩)
    · next hne =>
      obtain ⟨rfl, rfl⟩ := gives_pure.1 h
      refine .inl ⟨fun hr ↦ ?_, rfl, rfl⟩
      obtain ⟨t, ht⟩ := List.head?_eq_some_iff.1 hr
      exact hne t ht
  · rintro ⟨name, r, hname, h⟩
    refine ⟨name, r, hname, ?_⟩
    split
    · next t =>
      rcases h with ⟨hr, _⟩ | ⟨t', alternatives, ht, hkind, hchains, rfl⟩ |
        ⟨t', argument, r₂, ht, hkind, hargument, hr₂, rfl⟩
      · exact absurd rfl hr
      · obtain rfl := (List.cons.inj ht).2
        split
        · refine gives_bind.2 ⟨alternatives, _, hchains, gives_bind_expect.2 ⟨rest, rfl, ?_⟩⟩
          exact gives_pure.2 ⟨rfl, rfl⟩
        · next hne => exact absurd hkind hne
      · obtain rfl := (List.cons.inj ht).2
        split
        · next hkind' => exact absurd hkind' hkind
        · refine gives_bind.2 ⟨argument, r₂, hargument, gives_bind_expect.2 ⟨rest, hr₂, ?_⟩⟩
          exact gives_pure.2 ⟨rfl, rfl⟩
    · next hne =>
      rcases h with ⟨_, rfl, rfl⟩ | ⟨t, _, ht, _⟩ | ⟨t, _, _, ht, _⟩
      · exact gives_pure.2 ⟨rfl, rfl⟩
      · exact absurd ht (hne t)
      · exact absurd ht (hne t)

end Rules

/-- A selector is the alternatives that take up a whole text. -/
theorem selector_eq_ok {d : Dialect} {cs : List Char} {s : Selector} :
    selector d cs = .ok s ↔ ∃ alternatives, Gives (chains d cs) alternatives [] ∧
      s = .ofChains alternatives := by
  unfold selector
  constructor
  · intro h
    obtain ⟨⟨alternatives, rest, hle⟩, hchains, h⟩ := Outcome.bind_eq_ok.1 h
    cases rest with
    | nil => exact ⟨alternatives, ⟨hle, hchains⟩, (Except.ok.inj h).symm⟩
    | cons c t => cases h
  · rintro ⟨alternatives, ⟨hle, hchains⟩, hs⟩
    rw [hchains, hs]
    rfl

end DocSelect.Grammar

namespace DocSelect

/-- A text is read as a selector if the grammar takes it up to its end. -/
theorem Selector.parse_eq_ok {d : Dialect} {text : String} {s : Selector} :
    Selector.parse d text = .ok s ↔ Grammar.selector d text.toList = .ok s := by
  unfold Selector.parse
  cases Grammar.selector d text.toList with
  | error p =>
    constructor
    · intro h
      cases h
    · intro h
      cases h
  | ok s' =>
    constructor
    · intro h
      rw [Except.ok.inj h]
    · intro h
      rw [Except.ok.inj h]
      rfl

/-- The error of a text is a problem of the grammar, located in the text. -/
theorem Selector.parse_eq_error {d : Dialect} {text : String} {e : ParseError} :
    Selector.parse d text = .error e ↔
      ∃ p, Grammar.selector d text.toList = .error p ∧ p.toError text.toList = e := by
  unfold Selector.parse
  cases Grammar.selector d text.toList with
  | error p =>
    constructor
    · intro h
      exact ⟨p, rfl, Except.error.inj h⟩
    · rintro ⟨p', h, rfl⟩
      rw [Except.error.inj h]
      rfl
  | ok s =>
    constructor
    · intro h
      cases h
    · rintro ⟨p, h, _⟩
      cases h

end DocSelect
