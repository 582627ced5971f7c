import DocSelect.Proofs.Selector.Grammar
import DocSelect.Proofs.Selector.WellFormed
import Mathlib

/-!
# Whatever is read is well-formed

Each rule of the grammar gives well-formed syntax, because its checks stand in front of what it
takes. The rules call each other, and every call is on a shorter text or on a later rule of the
same text, so that all of them are settled together by the length of the text.
-/

namespace DocSelect

namespace Lexeme

/-- A required name is not empty. -/
theorem Gives.requiredName_ne {mark : Char} {cs rest : List Char} {s : String}
    (h : Gives (requiredName mark cs) s rest) : s ≠ "" := by
  obtain ⟨chars, _, hne, rfl⟩ := gives_requiredName.1 h
  exact mt String.ofList_eq_empty_iff.1 hne

/-- A name where one begins takes at least the character that it begins with. -/
theorem Gives.name_of_startsName {cs chars rest : List Char} (hs : Grammar.startsName cs = true)
    (h : Gives (name cs) chars rest) : chars ≠ [] ∧ rest.length < cs.length := by
  cases cs with
  | nil => cases hs
  | cons c t =>
    by_cases hc : c = '\\'
    · subst hc
      obtain ⟨x, r, hescape, more, hmore, rfl⟩ := gives_name_escape.1 h
      have hle : rest.length ≤ t.length := Nat.le_trans hmore.length_le hescape.length_le
      exact ⟨List.cons_ne_nil x more, Nat.lt_succ_of_le hle⟩
    · have hstart : isNameStart c = true := by simpa [Grammar.startsName, hc] using hs
      obtain ⟨more, hmore, rfl⟩ := (gives_name_cons hc (isNameChar_of_isNameStart hstart)).1 h
      exact ⟨List.cons_ne_nil c more, Nat.lt_succ_of_le hmore.length_le⟩

end Lexeme

namespace Grammar

open Text (skipBlank)
open Lexeme (Gives)

variable {d : Dialect} {cs rest : List Char}

/-- An attribute test that is read is well-formed. -/
theorem wellFormed_attributeTest {t : AttributeTest} (h : Gives (attributeTest d cs) t rest) :
    t.WellFormed d := by
  obtain ⟨name, r, hname, ⟨_, rfl⟩ | ⟨op, _, value, _, hop, hvalue, _, rfl⟩⟩ :=
    gives_attributeTest.1 h
  · exact ⟨hname.requiredName_ne, by simp⟩
  · refine ⟨hname.requiredName_ne, fun c hc ↦ ?_⟩
    obtain rfl := Option.some.inj hc
    refine ⟨(gives_comparisonMark.1 hop).2, ?_⟩
    rcases gives_operand.1 hvalue with
      ⟨_, _, _, _, _, _, rfl⟩ | ⟨_, s, _, hd, hs, rfl⟩ | ⟨_, rfl, _⟩
    · trivial
    · exact ⟨hd, hs.requiredName_ne⟩
    · trivial

/-- A plain argument that is read is of its kind. -/
theorem wellFormed_plainArgument {kind : ArgumentKind} {v : Argument} (hk : kind ≠ .selector)
    (h : Gives (plainArgument d kind cs) v rest) : v.WellFormed d kind := by
  have hplain (s : String) : (plain kind s).WellFormed d kind := by
    cases kind with
    | selector => exact absurd rfl hk
    | _ => simp [plain, Argument.WellFormed]
  rcases gives_plainArgument.1 h with
    ⟨_, _, s, _, _, _, rfl⟩ | ⟨_, s, _, hd, hs, rfl⟩ | ⟨_, s, _, rfl⟩
  · exact hplain s
  · exact ⟨hk, hd, hs.requiredName_ne⟩
  · exact hplain s

/-- A type test that is read has a name if it is one by name. -/
theorem wellFormed_typeTest {v : Option TypeTest} (h : Gives (typeTest cs) v rest) :
    ∀ t ∈ v, t.WellFormed := by
  rcases gives_typeTest.1 h with ⟨_, rfl⟩ | ⟨hs, chars, hc, rfl⟩ | ⟨_, _, rfl, _⟩
  · intro t ht
    obtain rfl := Option.some.inj ht
    trivial
  · intro t ht
    obtain rfl := Option.some.inj ht
    exact mt String.ofList_eq_empty_iff.1 (hc.name_of_startsName hs).1
  · intro t ht
    cases ht

/-- Where a compound can begin and no type test does, a part does. -/
theorem endsParts_eq_false (hs : startsCompound cs = true) (hstar : cs.head? ≠ some '*')
    (hname : startsName cs = false) : endsParts cs = false := by
  cases cs with
  | nil => cases hs
  | cons c t =>
    have hstar' : c ≠ '*' := fun h ↦ hstar (by rw [h]; rfl)
    simp only [startsName, List.head?_cons, Option.any_some, Bool.or_eq_false_iff,
      decide_eq_false_iff_not] at hname
    simp only [startsCompound, hname.1, beq_iff_eq, Bool.or_eq_true, hstar', hname.2,
      Bool.false_eq_true, or_self, false_or] at hs
    rcases hs with ((rfl | rfl) | rfl) | rfl
    · rfl
    · rfl
    · rfl
    · rfl

/-- A compound that is read where one can begin is not blank. -/
theorem isBlank_compound {c : Compound} (hs : startsCompound cs = true)
    (h : Gives (compound d cs) c rest) : c.isBlank = false := by
  obtain ⟨type, r, ps, htype, hps, rfl⟩ := gives_compound.1 h
  rcases gives_typeTest.1 htype with ⟨_, rfl⟩ | ⟨_, _, _, rfl⟩ | ⟨hstar, hname, rfl, rfl⟩
  · rfl
  · rfl
  · obtain ⟨p, _, _, more, _, rfl⟩ := (gives_parts_cons (endsParts_eq_false hs hstar hname)).1 hps
    exact Compound.isBlank_ofParts_cons none p more

/-- A part takes at least its mark. -/
theorem GivesPart.length_lt {p : Part} {r : List Char} (h : GivesPart d cs p r) :
    r.length < cs.length := by
  cases h with
  | className h => exact Nat.lt_succ_of_le h.length_le
  | id h => exact Nat.lt_succ_of_le h.length_le
  | attr h => exact Nat.lt_succ_of_le h.length_le
  | pseudo h => exact Nat.lt_succ_of_le h.length_le

/-- A compound carries no combinator when it is read. -/
theorem combinator_compound {c : Compound} (h : Gives (compound d cs) c rest) :
    c.combinator = none := by
  obtain ⟨_, _, _, _, _, rfl⟩ := gives_compound.1 h
  rfl

-- The induction is on the length of the text; at the same length a reader only calls those
-- further down the grammar, which the number behind the length counts.
mutual
/-- Alternatives that are read are well-formed. -/
theorem wellFormed_chains (cs : List Char) {v : List (Chain Compound)} {rest : List Char}
    (h : Gives (chains d cs) v rest) : Selector.ChainsWellFormed d v := by
  have h₀ := Text.length_skipBlank_le cs
  rcases gives_chains.1 h with ⟨_, rfl, _⟩ | ⟨hs, first, r, more, hfirst, hmore, rfl⟩
  · trivial
  · have hr := hfirst.length_le
    exact ⟨wellFormed_chain (skipBlank cs) hs hfirst, wellFormed_moreChains r hmore⟩
termination_by 6 * cs.length + 5

/-- Alternatives behind others are well-formed. -/
theorem wellFormed_moreChains (cs : List Char) {v : List (Chain Compound)} {rest : List Char}
    (h : Gives (moreChains d cs) v rest) : Selector.ChainsWellFormed d v := by
  by_cases hc : cs.head? = some ','
  · obtain ⟨t, ht⟩ := List.head?_eq_some_iff.1 hc
    have hlen : cs.length = t.length + 1 := by rw [ht, List.length_cons]
    have h₀ := Text.length_skipBlank_le t
    rw [ht] at h
    obtain ⟨hs, next, r, hnext, more, hmore, rfl⟩ := gives_moreChains_comma.1 h
    have hr := hnext.length_le
    exact ⟨wellFormed_chain (skipBlank t) hs hnext, wellFormed_moreChains r hmore⟩
  · obtain ⟨rfl, _⟩ := (gives_moreChains_stop hc).1 h
    trivial
termination_by 6 * cs.length + 4

/-- A chain that is read is well-formed. -/
theorem wellFormed_chain (cs : List Char) {v : Chain Compound} {rest : List Char}
    (hs : startsCompound cs = true) (h : Gives (chain d cs) v rest) :
    Selector.ChainWellFormed d v := by
  obtain ⟨head, r, links', hhead, hlinks, rfl⟩ := gives_chain.1 h
  have hr := hhead.length_le
  exact ⟨combinator_compound hhead, wellFormed_compound cs hs hhead, wellFormed_links r hlinks⟩
termination_by 6 * cs.length + 4

/-- Links that are read are well-formed. -/
theorem wellFormed_links (cs : List Char) {v : List Compound} {rest : List Char}
    (h : Gives (links d cs) v rest) : Selector.LinksWellFormed d v := by
  have h₀ := Text.length_skipBlank_le cs
  cases hskip : skipBlank cs with
  | nil =>
    obtain ⟨rfl, _⟩ := (gives_links_stop (by rw [hskip]; rfl) (by rw [hskip]; rfl)).1 h
    trivial
  | cons c t =>
    have hlen : t.length + 1 ≤ cs.length := by rwa [hskip] at h₀
    have h₁ := Text.length_skipBlank_le t
    cases hop : Combinator.ofMark? c with
    | some op =>
      obtain ⟨hd, hs, next, r, hnext, more, hmore, rfl⟩ := (gives_links_mark hskip hop).1 h
      have hr := hnext.length_le
      refine ⟨⟨op, rfl, hd⟩, ?_, wellFormed_links r hmore⟩
      exact Compound.wellFormed_withCombinator.2 (wellFormed_compound (skipBlank t) hs hnext)
    | none =>
      cases hs : startsCompound (c :: t) with
      | false =>
        obtain ⟨rfl, _⟩ := (gives_links_stop (by rw [hskip, hs]) (by rw [hskip]; exact hop)).1 h
        trivial
      | true =>
        obtain ⟨hlt, next, r, hnext, more, hmore, rfl⟩ := (gives_links_blank hskip hs).1 h
        have hr := hnext.length_le
        have hlen : t.length + 1 < cs.length := hlt
        refine ⟨⟨.descendant, rfl, rfl⟩, ?_, wellFormed_links r hmore⟩
        exact Compound.wellFormed_withCombinator.2 (wellFormed_compound (c :: t) hs hnext)
termination_by 6 * cs.length + 3

/-- A compound that is read where one can begin is well-formed. -/
theorem wellFormed_compound (cs : List Char) {v : Compound} {rest : List Char}
    (hs : startsCompound cs = true) (h : Gives (compound d cs) v rest) : v.WellFormed d := by
  have hblank := isBlank_compound hs h
  obtain ⟨type, r, ps, htype, hps, rfl⟩ := gives_compound.1 h
  have hr := htype.length_le
  exact Compound.wellFormed_ofParts hblank (wellFormed_typeTest htype) (wellFormed_parts r hps)
termination_by 6 * cs.length + 2

/-- Parts that are read are well-formed. -/
theorem wellFormed_parts (cs : List Char) {v : List Part} {rest : List Char}
    (h : Gives (parts d cs) v rest) : ∀ p ∈ v, p.WellFormed d := by
  cases hends : endsParts cs with
  | true =>
    obtain ⟨rfl, _⟩ := (gives_parts_stop hends).1 h
    simp
  | false =>
    obtain ⟨p, r, hp, more, hmore, rfl⟩ := (gives_parts_cons hends).1 h
    have hr := hp.length_lt
    refine List.forall_mem_cons.2 ⟨?_, wellFormed_parts r hmore⟩
    generalize hcs : cs = whole at hp
    cases hp with
    | className hname => exact hname.requiredName_ne
    | id hname => exact hname.requiredName_ne
    | attr htest => exact wellFormed_attributeTest htest
    | @pseudo t _ _ htest =>
      have hlen : cs.length = t.length + 1 := by rw [hcs, List.length_cons]
      exact wellFormed_pseudoClass t htest
termination_by 6 * cs.length + 1

/-- A pseudo-class that is read is well-formed. -/
theorem wellFormed_pseudoClass (cs : List Char) {v : PseudoClass} {rest : List Char}
    (h : Gives (pseudoClass d cs) v rest) : v.WellFormed d := by
  obtain ⟨name, r, hname, h⟩ := gives_pseudoClass.1 h
  have hr := hname.length_le
  rcases h with ⟨_, rfl, _⟩ | ⟨t, alternatives, rfl, hkind, hchains, rfl⟩ |
    ⟨t, argument, r₂, rfl, hkind, hargument, _, rfl⟩
  · exact ⟨hname.requiredName_ne, trivial⟩
  · have h₀ := Text.length_skipBlank_le t
    have hlen : t.length + 1 ≤ cs.length := hr
    refine ⟨hname.requiredName_ne, hkind, ?_⟩
    exact Selector.wellFormed_ofChains.2 (wellFormed_chains (skipBlank t) hchains)
  · exact ⟨hname.requiredName_ne, wellFormed_plainArgument hkind hargument⟩
termination_by 6 * cs.length
end

end Grammar

/-- Whatever is read as a selector is well-formed. -/
theorem Selector.wellFormed_parse {d : Dialect} {text : String} {s : Selector}
    (h : Selector.parse d text = .ok s) : s.WellFormed d := by
  obtain ⟨alternatives, hchains, rfl⟩ := Grammar.selector_eq_ok.1 (parse_eq_ok.1 h)
  exact wellFormed_ofChains.2 (Grammar.wellFormed_chains text.toList hchains)

/-- A selector with a nested list, read and so well-formed. -/
theorem Selector.wellFormed_parse_nested :
    let not : PseudoClass := ⟨"not", .selector (.list [
      ⟨⟨some (.named "x"), none, [], [], [], none⟩, []⟩,
      ⟨⟨some .any, none, [], [], [], none⟩, []⟩])⟩
    let s : Selector := .chain ⟨⟨some (.named "item"), none, [], [], [], none⟩,
      [⟨none, none, ["a"], [⟨"b", some (.hasWord, .text "c")⟩], [not], some .child⟩]⟩
    Selector.parse .document "item > .a[b~='c']:not(x, *)" = .ok s ∧ s.WellFormed .document := by
  intro not s
  have h : Selector.parse .document "item > .a[b~='c']:not(x, *)" = .ok s := by cbv
  exact ⟨h, wellFormed_parse h⟩

end DocSelect
