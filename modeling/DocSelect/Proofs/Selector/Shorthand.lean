import DocSelect.Selector.Basic

/-!
# Shorthands

The type, the identifier and the classes of a compound can also be asked for as attributes. A
selector is spelled out where the test of an attribute takes the place of one of them: in a
compound of one of its chains, or further in, in the argument of `:has`. The arguments of `:not`,
`:matches` and `:any` are left alone, since an identifier or a class is refused there while an
attribute is not, and those of a caller's pseudo-classes, since these get them as they are written.
-/

namespace DocSelect

mutual
/-- Whether a selector becomes another one when one shorthand in it is spelled out. -/
inductive Selector.SpellsOut : Selector → Selector → Prop where
  | chain {c d : Chain Compound} (h : Selector.ChainSpellsOut c d) :
      Selector.SpellsOut (.chain c) (.chain d)
  | list (before after : List (Chain Compound)) {c d : Chain Compound}
      (h : Selector.ChainSpellsOut c d) :
      Selector.SpellsOut (.list (before ++ c :: after)) (.list (before ++ d :: after))

/-- Whether a chain becomes another one when a shorthand in one of its compounds is spelled out. -/
inductive Selector.ChainSpellsOut : Chain Compound → Chain Compound → Prop where
  | head {c d : Compound} (links : List Compound) (h : Compound.SpellsOut c d) :
      Selector.ChainSpellsOut ⟨c, links⟩ ⟨d, links⟩
  | link (head : Compound) (before after : List Compound) {c d : Compound}
      (h : Compound.SpellsOut c d) :
      Selector.ChainSpellsOut ⟨head, before ++ c :: after⟩ ⟨head, before ++ d :: after⟩

/-- Whether a compound becomes another one when its type, its identifier or one of its classes is
spelled out, anywhere among its attributes, or a shorthand in an argument of `:has`. -/
inductive Compound.SpellsOut : Compound → Compound → Prop where
  | type (name : String) (id : Option String) (classes : List String)
      (before after : List AttributeTest) (pseudos : List PseudoClass)
      (combinator : Option Combinator) :
      Compound.SpellsOut
        ⟨some (.named name), id, classes, before ++ after, pseudos, combinator⟩
        ⟨none, id, classes, before ++ ⟨"type", some (.equals, .text name)⟩ :: after, pseudos,
          combinator⟩
  | id (type : Option TypeTest) (name : String) (classes : List String)
      (before after : List AttributeTest) (pseudos : List PseudoClass)
      (combinator : Option Combinator) :
      Compound.SpellsOut ⟨type, some name, classes, before ++ after, pseudos, combinator⟩
        ⟨type, none, classes, before ++ ⟨"identifier", some (.equals, .text name)⟩ :: after,
          pseudos, combinator⟩
  | class (type : Option TypeTest) (id : Option String) (first last : List String) (name : String)
      (before after : List AttributeTest) (pseudos : List PseudoClass)
      (combinator : Option Combinator) :
      Compound.SpellsOut
        ⟨type, id, first ++ name :: last, before ++ after, pseudos, combinator⟩
        ⟨type, id, first ++ last, before ++ ⟨"class", some (.hasWord, .text name)⟩ :: after,
          pseudos, combinator⟩
  | has (type : Option TypeTest) (id : Option String) (classes : List String)
      (attributes : List AttributeTest) (before after : List PseudoClass)
      (combinator : Option Combinator) {s t : Selector} (h : Selector.SpellsOut s t) :
      Compound.SpellsOut
        ⟨type, id, classes, attributes, before ++ ⟨"has", .selector s⟩ :: after, combinator⟩
        ⟨type, id, classes, attributes, before ++ ⟨"has", .selector t⟩ :: after, combinator⟩
end

end DocSelect
