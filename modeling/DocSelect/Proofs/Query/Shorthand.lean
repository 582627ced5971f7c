import DocSelect.Proofs.Query.Brackets
import DocSelect.Proofs.Query.Locality
import DocSelect.Proofs.Selector.Shorthand
import DocSelect.Proofs.Tree.Order

/-!
# What shorthands mean

A document node answers the same whether its type and its identifier are asked for directly or as
attributes. Its classes can be asked for as words of the attribute `class`, too: a comparison goes
by the text forms of numbers and truth values where a class does not, but a node whose class has
none of these cannot tell the two apart. So a selector that is spelled out restricts to the same
steps at such nodes, and finds the same in trees of them.
-/

namespace DocSelect

open Outcome

namespace Json

/-- Whether a value is a number or a truth value, so that its text form is no text of its own. -/
def isCoerced : Json → Bool
  | .bool _ | .number _ => true
  | .null | .string _ | .array _ | .object _ => false

/-- Whether a value is neither a number nor a truth value, and no array with such items. -/
def isTextual : Json → Bool
  | .array items => items.all fun item ↦ !item.isCoerced
  | value => !value.isCoerced

/-- All other values have their text as text form, if any. -/
theorem scalarText?_of_not_isCoerced {value : Json} (h : value.isCoerced = false) :
    value.scalarText? = value.string? := by
  cases value with
  | bool b => cases h
  | number n => cases h
  | null => rfl
  | string s => rfl
  | array items => rfl
  | object members => rfl

end Json

/-- Texts are equal exactly if their characters are. -/
theorem Comparison.holds_equals (actual expected : String) :
    equals.holds actual.toList expected.toList = (expected == actual) := by
  rw [Bool.eq_iff_iff, beq_iff_eq, holds, beq_iff_eq, String.toList_inj]
  exact eq_comm

/-- A textual value names the classes that are among its words. -/
theorem namesClass_eq_holdsFor {value : Json} (h : value.isTextual = true) (name : String) :
    namesClass value name = Comparison.hasWord.holdsFor value name := by
  cases value with
  | null => rfl
  | bool b => cases h
  | number n => cases h
  | string s => rfl
  | object members => rfl
  | array items =>
    change (items.any fun item ↦ item.string? == some name) =
      items.any fun item ↦ item.scalarText? == some name
    rw [Bool.eq_iff_iff, List.any_eq_true, List.any_eq_true]
    refine exists_congr fun item ↦ and_congr_right fun hitem ↦ ?_
    have hcoerced : item.isCoerced = false := by simpa using List.all_eq_true.1 h item hitem
    rw [Json.scalarText?_of_not_isCoerced hcoerced]

namespace Content

/-- Whether the attribute `class`, if there is one, is textual. -/
def hasTextualClass (c : Content) : Bool := (c.attribute? "class").all Json.isTextual

/-- The type as an attribute. -/
theorem accepts_type (c : Content) (name : String) :
    AttributeMatcher.accepts ⟨"type", some (.equals, name)⟩ (Element.attribute? c "type") =
      (name == Element.type c) :=
  Comparison.holds_equals c.type name

/-- The identifier as an attribute. -/
theorem accepts_identifier (c : Content) (name : String) :
    AttributeMatcher.accepts ⟨"identifier", some (.equals, name)⟩
        (Element.attribute? c "identifier") =
      (Element.identifier? c == some name) := by
  have hattribute : Element.attribute? c "identifier" = c.identifier.map .string := rfl
  have hidentifier : Element.identifier? c = c.identifier := rfl
  rw [hattribute, hidentifier]
  cases c.identifier with
  | none => rfl
  | some identifier =>
    rw [Option.some_beq_some, Bool.beq_comm]
    exact Comparison.holds_equals identifier name

/-- A class as a word of an attribute. -/
theorem accepts_class {c : Content} (h : c.hasTextualClass = true) (name : String) :
    AttributeMatcher.accepts ⟨"class", some (.hasWord, name)⟩ (Element.attribute? c "class") =
      Element.hasClass c name := by
  have hclass : Element.hasClass c name =
      (Element.attribute? c "class").any (namesClass · name) := rfl
  have htextual : (Element.attribute? c "class").all Json.isTextual = true := h
  rw [hclass]
  cases hvalue : Element.attribute? c "class" with
  | none => rfl
  | some value =>
    rw [hvalue] at htextual
    exact (namesClass_eq_holdsFor htextual name).symm

end Content

section Restrict

variable {α : Type} [Element α] {P : Tree α → Prop} [DecidablePred P]

/-- The chains of some alternatives restrict to those of their matchers. -/
theorem Matcher.map_restrict_chains (cs : List (Chain (Matcher α))) :
    (Matcher.chains cs).map (Chain.map (Step.restrict P)) =
      cs.map (Chain.map fun m ↦ m.step.restrict P) := by
  rw [Matcher.chains_eq, List.map_map]
  refine List.map_congr_left fun c _ ↦ ?_
  rw [Function.comp_apply, Chain.map, Chain.map, List.map_map]
  rfl

/-- Pseudo-classes together restrict to the same if they do one by one. -/
theorem Test.restrict_all_congr {ts us : List (Test α)}
    (h : ts.map (fun t ↦ Inquiry.restrict P t.verdict) =
      us.map fun u ↦ Inquiry.restrict P u.verdict) :
    Inquiry.restrict P (Test.all ts) = Inquiry.restrict P (Test.all us) := by
  induction ts generalizing us with
  | nil =>
    obtain rfl := List.map_eq_nil_iff.1 h.symm
    rfl
  | cons t ts ih =>
    cases us with
    | nil => cases h
    | cons u us =>
      obtain ⟨hhead, htail⟩ := List.cons.inj h
      refine Inquiry.restrict_eq_iff.2 fun setting place position hinner hplace ↦ ?_
      rw [Test.all, Test.all,
        Inquiry.restrict_eq_iff.1 hhead setting place position hinner hplace,
        Inquiry.restrict_eq_iff.1 (ih htail) setting place position hinner hplace]

/-- What `:has` restricts to depends on what its alternatives restrict to. -/
theorem Test.restrict_has_congr (hP : Tree.Hereditary P) {ms ns : List (Chain (Matcher α))}
    (h : ms.map (Chain.map fun m ↦ m.step.restrict P) =
      ns.map (Chain.map fun n ↦ n.step.restrict P)) :
    Inquiry.restrict P (has ms).verdict = Inquiry.restrict P (has ns).verdict := by
  refine Inquiry.restrict_eq_iff.2 fun setting place position _ hplace ↦ ?_
  rw [verdict, verdict]
  refine hasBelow_congr hP hplace ?_ setting
  rw [Matcher.map_restrict_chains, Matcher.map_restrict_chains, h]

/-- Matchers restrict to the same if their parts do, those that look at contents being one. -/
theorem Matcher.restrict_step_congr {m n : Matcher α} (hcombinator : m.combinator = n.combinator)
    (halone : ∀ t, P t → m.holdsAlone t.content = n.holdsAlone t.content)
    (htests : Inquiry.restrict P (Test.all m.tests) = Inquiry.restrict P (Test.all n.tests)) :
    m.step.restrict P = n.step.restrict P := by
  apply Step.eq_of_test
  · change m.step.combinator = n.step.combinator
    rw [combinator_step, combinator_step, hcombinator]
  · refine Inquiry.restrict_eq_iff.2 fun setting place position hinner hplace ↦ ?_
    rw [test_step (by simp [hinner]), test_step (by simp [hinner]), halone _ hplace,
      Inquiry.restrict_eq_iff.1 htests setting place position hinner hplace]

/-- The test of an attribute can stand anywhere among others in the place of parts that ask the
same. -/
theorem Matcher.holdsAlone_insert {type type' id id' : Option String}
    {classes classes' : List String} {m : AttributeMatcher} {a : α}
    (h : holdsAlone ⟨type, id, classes, [], [], none⟩ a =
      holdsAlone ⟨type', id', classes', [m], [], none⟩ a)
    (as bs : List AttributeMatcher) (ts : List (Test α)) (combinator : Option Combinator) :
    holdsAlone ⟨type, id, classes, as ++ bs, ts, combinator⟩ a =
      holdsAlone ⟨type', id', classes', as ++ m :: bs, ts, combinator⟩ a := by
  simp only [holdsAlone, List.all_nil, List.all_cons, List.all_append, Bool.and_true] at h ⊢
  rw [h]
  ac_rfl

/-- The type that the test of a type asks for, if it asks for one. -/
def TypeTest.asked? : Option TypeTest → Option String
  | some (.named name) => some name
  | some .any | none => none

/-- A compound restricts to the same as one with the test of an attribute in the place of parts
that ask the same. -/
theorem Compound.map_resolve_attribute {o : QueryOptions α} {type type' : Option TypeTest}
    {id id' : Option String} {classes classes' : List String} {test : AttributeTest}
    {m : AttributeMatcher} (htest : test.resolve o = .ok m)
    (h : ∀ t, P t →
      Matcher.holdsAlone ⟨TypeTest.asked? type, id, classes, [], [], none⟩ t.content =
        Matcher.holdsAlone ⟨TypeTest.asked? type', id', classes', [m], [], none⟩ t.content)
    (before after : List AttributeTest) (pseudos : List PseudoClass)
    (combinator : Option Combinator) :
    (fun m ↦ m.step.restrict P) <$>
        resolve o ⟨type, id, classes, before ++ after, pseudos, combinator⟩ =
      (fun m ↦ m.step.restrict P) <$>
        resolve o ⟨type', id', classes', before ++ test :: after, pseudos, combinator⟩ := by
  simp only [resolve, AttributeTest.resolveAll_eq_mapM, List.mapM_append, List.mapM_cons, htest,
    bind_assoc, ok_bind, pure_bind]
  refine map_bind_congr_right fun as _ ↦ map_bind_congr_right fun bs _ ↦
    map_bind_congr_right fun ts _ ↦ ?_
  exact congrArg Except.ok <|
    Matcher.restrict_step_congr rfl (fun t ht ↦ Matcher.holdsAlone_insert (h t ht) as bs _ _) rfl

/-- A compound restricts to the same as one with another pseudo-class that restricts to the same. -/
theorem Compound.map_resolve_pseudo {o : QueryOptions α} {p q : PseudoClass}
    (h : (fun t : Test α ↦ Inquiry.restrict P t.verdict) <$> p.resolve o =
      (fun t : Test α ↦ Inquiry.restrict P t.verdict) <$> q.resolve o)
    (type : Option TypeTest) (id : Option String) (classes : List String)
    (attributes : List AttributeTest) (before after : List PseudoClass)
    (combinator : Option Combinator) :
    (fun m ↦ m.step.restrict P) <$>
        resolve o ⟨type, id, classes, attributes, before ++ p :: after, combinator⟩ =
      (fun m ↦ m.step.restrict P) <$>
        resolve o ⟨type, id, classes, attributes, before ++ q :: after, combinator⟩ := by
  unfold resolve
  rw [PseudoClass.resolveAll_eq_mapM, PseudoClass.resolveAll_eq_mapM]
  refine map_bind_congr_right fun as _ ↦
    map_bind_congr (map_mapM_congr before after h) fun ts us htests ↦ ?_
  exact congrArg Except.ok <|
    Matcher.restrict_step_congr rfl (fun _ _ ↦ rfl) (Test.restrict_all_congr htests)

end Restrict

namespace Node

/-- Whether the classes of all nodes of a tree are textual. -/
def HasTextualClasses (t : Node) : Prop := ∀ p ∈ t.places, p.tree.content.hasTextualClass = true

/-- Whether classes are textual is decided by a look at the attribute. -/
instance : DecidablePred HasTextualClasses := fun t ↦
  inferInstanceAs (Decidable (∀ p ∈ t.places, p.tree.content.hasTextualClass = true))

/-- The root is one of the nodes of a tree. -/
theorem HasTextualClasses.content {t : Node} (h : t.HasTextualClasses) :
    t.content.hasTextualClass = true :=
  h (.root t) (Tree.mem_places.2 rfl)

/-- The nodes below a child are nodes of the whole tree. -/
theorem hereditary_hasTextualClasses : Tree.Hereditary HasTextualClasses := by
  intro a cs h c hc p hp
  obtain ⟨i, hi⟩ := List.getElem?_of_mem hc
  have hat : (Tree.parent a cs).at? (i :: p.path) = some p.tree := by
    rw [Tree.at?, hi]
    exact Tree.mem_places.1 hp
  exact h ⟨i :: p.path, p.tree⟩ (Tree.mem_places.2 hat)

end Node

section Resolve

variable {o : QueryOptions Content}

/-- What a matcher asks of nodes with textual classes. -/
def Matcher.textual (m : Matcher Content) : Step Content :=
  m.step.restrict Node.HasTextualClasses

mutual
/-- A selector that is spelled out restricts to the same chains of steps. -/
theorem Selector.SpellsOut.map_resolve {s t : Selector} :
    s.SpellsOut t →
      List.map (Chain.map Matcher.textual) <$> s.resolve o =
        List.map (Chain.map Matcher.textual) <$> t.resolve o
  | .chain h => Selector.map_resolve_chain h.map_resolveChain
  | .list before after h => Selector.map_resolve_list before after h.map_resolveChain

/-- A chain that is spelled out restricts to the same chain of steps. -/
theorem Selector.ChainSpellsOut.map_resolveChain {c d : Chain Compound} :
    Selector.ChainSpellsOut c d →
      Chain.map Matcher.textual <$> Selector.resolveChain o c =
        Chain.map Matcher.textual <$> Selector.resolveChain o d
  | .head links h => Selector.map_resolveChain_head links h.map_resolve
  | .link head before after h => Selector.map_resolveChain_link head before after h.map_resolve

/-- A compound that is spelled out restricts to the same step. -/
theorem Compound.SpellsOut.map_resolve {c d : Compound} :
    c.SpellsOut d → Matcher.textual <$> c.resolve o = Matcher.textual <$> d.resolve o
  | .type name id classes before after pseudos combinator => by
    refine Compound.map_resolve_attribute rfl (fun t _ ↦ ?_) before after pseudos combinator
    simp only [Matcher.holdsAlone, TypeTest.asked?, Option.all_some, Option.all_none,
      List.all_cons, List.all_nil, Content.accepts_type, Bool.and_true, Bool.true_and]
    ac_rfl
  | .id type name classes before after pseudos combinator => by
    refine Compound.map_resolve_attribute rfl (fun t _ ↦ ?_) before after pseudos combinator
    simp only [Matcher.holdsAlone, Option.all_some, Option.all_none, List.all_cons, List.all_nil,
      Content.accepts_identifier, Bool.and_true]
    ac_rfl
  | .class type id first last name before after pseudos combinator => by
    refine Compound.map_resolve_attribute rfl (fun t ht ↦ ?_) before after pseudos combinator
    simp only [Matcher.holdsAlone, List.all_append, List.all_cons, List.all_nil,
      Content.accepts_class ht.content, Bool.and_true]
    ac_rfl
  | .has type id classes attributes before after combinator h => by
    refine Compound.map_resolve_pseudo ?_ type id classes attributes before after combinator
    have hhas : selectorTest? "has" = some (Test.has : _ → Test Content) := rfl
    rw [PseudoClass.resolve_selector hhas, PseudoClass.resolve_selector hhas]
    refine map_bind_congr h.map_resolve fun ms ns hms ↦ ?_
    exact congrArg Except.ok (Test.restrict_has_congr Node.hereditary_hasTextualClasses hms)
end

/-- Selectors that become each other when shorthands are spelled out restrict to the same chains of
steps. -/
theorem Selector.map_resolve_of_eqvGen {s t : Selector}
    (h : Relation.EqvGen Selector.SpellsOut s t) :
    List.map (Chain.map Matcher.textual) <$> s.resolve o =
      List.map (Chain.map Matcher.textual) <$> t.resolve o :=
  Selector.eq_of_eqvGen (fun s ↦ List.map (Chain.map Matcher.textual) <$> s.resolve o)
    (fun _ _ h ↦ h.map_resolve) h

end Resolve

namespace Query

variable {o : QueryOptions Content} {s t : Selector}

/-- Selectors that become each other when types, identifiers and classes are spelled out as
attributes, any number of them and in either direction, fail alike or give queries that find the
same in every tree whose classes are textual, errors included. -/
theorem ofSelector_of_spellsOut (h : Relation.EqvGen Selector.SpellsOut s t) :
    (∃ e, ofSelector o s = .error e ∧ ofSelector o t = .error e) ∨
      ∃ q r, ofSelector o s = .ok q ∧ ofSelector o t = .ok r ∧
        ∀ root : Node, root.HasTextualClasses → q.findAll root = r.findAll root := by
  unfold ofSelector
  rcases map_eq_map (Selector.map_resolve_of_eqvGen (o := o) h) with
    ⟨e, hs, ht⟩ | ⟨ms, ns, hs, ht, hsame⟩
  · rw [hs, ht]
    exact .inl ⟨e, rfl, rfl⟩
  · rw [hs, ht]
    refine .inr ⟨_, _, rfl, rfl, fun root hroot ↦ ?_⟩
    have hchains : (Matcher.chains ms).map (Chain.map (Step.restrict Node.HasTextualClasses)) =
        (Matcher.chains ns).map (Chain.map (Step.restrict Node.HasTextualClasses)) := by
      rw [Matcher.map_restrict_chains, Matcher.map_restrict_chains]
      exact hsame
    exact Search.found_run_congr Node.hereditary_hasTextualClasses hroot hchains false
      (Place.root root).scope o.maxDepth

/-- In a list with one item `list:has(#x.b)` finds the list, as
`[type="list"]:has([identifier="x"][class~="b"])` does. -/
theorem ofSelector_of_spellsOut_has :
    let having (type : Option TypeTest) (attributes : List AttributeTest) (s : Selector) :
        Selector :=
      .chain ⟨⟨type, none, [], attributes, [⟨"has", .selector s⟩], none⟩, []⟩
    let single (id : Option String) (classes : List String) (attributes : List AttributeTest) :
        Selector :=
      .chain ⟨⟨none, id, classes, attributes, [], none⟩, []⟩
    let type : AttributeTest := ⟨"type", some (.equals, .text "list")⟩
    let id : AttributeTest := ⟨"identifier", some (.equals, .text "x")⟩
    let word : AttributeTest := ⟨"class", some (.hasWord, .text "b")⟩
    let s := having (some (.named "list")) [] (single (some "x") ["b"] [])
    let t := having none [type] (single none [] [id, word])
    let root := Node.ofChildren "list"
      [((Node.ofType "item").withIdentifier "x").withAttribute "class"
        (.array [.string "b", .null])]
    Relation.EqvGen Selector.SpellsOut s t ∧ root.HasTextualClasses ∧ ∃ q r : Query Content,
      ofSelector .default s = .ok q ∧ ofSelector .default t = .ok r ∧
        q.findAll root = .ok [⟨[], root⟩] ∧ r.findAll root = .ok [⟨[], root⟩] := by
  intro having single type id word s t root
  have htype : Selector.SpellsOut s (having none [type] (single (some "x") ["b"] [])) :=
    .chain (.head [] (.type "list" none [] [] [] _ none))
  have hid : Selector.SpellsOut (having none [type] (single (some "x") ["b"] []))
      (having none [type] (single none ["b"] [id])) :=
    .chain (.head [] (.has none none [] [type] [] [] none
      (.chain (.head [] (.id none "x" ["b"] [] [] [] none)))))
  have hword : Selector.SpellsOut (having none [type] (single none ["b"] [id])) t :=
    .chain (.head [] (.has none none [] [type] [] [] none
      (.chain (.head [] (.class none none [] [] "b" [id] [] [] none)))))
  have h : Relation.EqvGen Selector.SpellsOut s t :=
    .trans _ _ _ (.rel _ _ htype) (.trans _ _ _ (.rel _ _ hid) (.rel _ _ hword))
  have hroot : root.HasTextualClasses := by decide
  refine ⟨h, hroot, ?_⟩
  rcases ofSelector_of_spellsOut (o := .default) h with ⟨e, he, _⟩ | ⟨q, r, hq, hr, hall⟩
  · cases he
  · have hfound : q.findAll root = .ok [⟨[], root⟩] := by
      obtain rfl := Except.ok.inj hq
      rfl
    exact ⟨q, r, hq, hr, hfound, (hall root hroot).symm.trans hfound⟩

/-- A number is a word of the attribute `class`, but it names no class. -/
example :
    let node := (Node.ofType "item").withAttribute "class" (Json.ofInt 7)
    Element.hasClass node.content "7" = false ∧
      AttributeMatcher.accepts ⟨"class", some (.hasWord, "7")⟩
        (Element.attribute? node.content "class") = true := by
  decide

end Query

end DocSelect
