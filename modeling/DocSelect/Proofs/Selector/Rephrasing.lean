import DocSelect.Selector.Basic
import Mathlib.Logic.Relation

/-!
# Rephrased selectors

The pseudo-classes `:not`, `:matches` and `:any` can say one thing in several ways. A selector is
rephrased where one of these ways takes the place of another one: in a compound of one of its
chains, or further in, in the argument of a pseudo-class that takes a selector. Arguments of a
caller's pseudo-classes are left alone, since these get them as they are written.
-/

namespace DocSelect

mutual
/-- Whether a selector becomes another one when one phrase in it is put in another way. -/
inductive Selector.Rephrases : Selector → Selector → Prop where
  | chain {c d : Chain Compound} (h : Selector.ChainRephrases c d) :
      Selector.Rephrases (.chain c) (.chain d)
  | list (before after : List (Chain Compound)) {c d : Chain Compound}
      (h : Selector.ChainRephrases c d) :
      Selector.Rephrases (.list (before ++ c :: after)) (.list (before ++ d :: after))

/-- Whether a chain becomes another one when one of its compounds is rephrased. -/
inductive Selector.ChainRephrases : Chain Compound → Chain Compound → Prop where
  | head {c d : Compound} (links : List Compound) (h : Compound.Rephrases c d) :
      Selector.ChainRephrases ⟨c, links⟩ ⟨d, links⟩
  | link (head : Compound) (before after : List Compound) {c d : Compound}
      (h : Compound.Rephrases c d) :
      Selector.ChainRephrases ⟨head, before ++ c :: after⟩ ⟨head, before ++ d :: after⟩

/-- Whether a compound becomes another one when some of its pseudo-classes are rephrased, or when
it is nothing but a `:matches` whose only alternative can stand in its place. -/
inductive Compound.Rephrases : Compound → Compound → Prop where
  | pseudos (type : Option TypeTest) (id : Option String) (classes : List String)
      (attributes : List AttributeTest) (before after : List PseudoClass)
      (combinator : Option Combinator) {ps qs : List PseudoClass}
      (h : PseudoClass.Rephrase ps qs) :
      Compound.Rephrases ⟨type, id, classes, attributes, before ++ ps ++ after, combinator⟩
        ⟨type, id, classes, attributes, before ++ qs ++ after, combinator⟩
  /-- A `:matches` of one compound is that compound. An identifier or a class is not allowed
  within it, and `:scope` stands for other nodes there. -/
  | unwrap (s : Selector) (c : Compound) (combinator : Option Combinator)
      (hs : s.chains = [⟨c, []⟩]) (hid : c.id = none) (hclasses : c.classes = [])
      (hscope : ∀ p ∈ c.pseudos, p.name ≠ "scope") :
      Compound.Rephrases ⟨none, none, [], [], [⟨"matches", .selector s⟩], combinator⟩
        { c with combinator := combinator }

/-- Whether pseudo-classes that stand side by side become others. -/
inductive PseudoClass.Rephrase : List PseudoClass → List PseudoClass → Prop where
  /-- None of some alternatives and others is none of these and none of those. -/
  | notOr (s a b : Selector) (hs : s.chains = a.chains ++ b.chains) :
      PseudoClass.Rephrase [⟨"not", .selector s⟩] [⟨"not", .selector a⟩, ⟨"not", .selector b⟩]
  /-- Not none of some alternatives is one of them. -/
  | notNot (s a : Selector) (combinator : Option Combinator)
      (hs : s.chains = [⟨⟨none, none, [], [], [⟨"not", .selector a⟩], combinator⟩, []⟩]) :
      PseudoClass.Rephrase [⟨"not", .selector s⟩] [⟨"matches", .selector a⟩]
  /-- Any of some alternatives is one of them. -/
  | any (s : Selector) : PseudoClass.Rephrase [⟨"any", .selector s⟩] [⟨"matches", .selector s⟩]
  | within (name : String) (hname : name ∈ ["any", "matches", "not", "has"]) {s t : Selector}
      (h : Selector.Rephrases s t) :
      PseudoClass.Rephrase [⟨name, .selector s⟩] [⟨name, .selector t⟩]
end

/-- What each change of a selector keeps is kept by any number of them, in either direction. -/
theorem Selector.eq_of_eqvGen {β : Type} {r : Selector → Selector → Prop} (f : Selector → β)
    (hr : ∀ s t, r s t → f s = f t) {s t : Selector} (h : Relation.EqvGen r s t) : f s = f t := by
  induction h with
  | rel s t h => exact hr s t h
  | refl s => rfl
  | symm s t _ ih => exact ih.symm
  | trans s t u _ _ ih ih' => exact ih.trans ih'

end DocSelect
