import DocSelect.Members
import DocSelect.Selector.Basic
import Mathlib.Data.List.Forall2

/-!
# The variables of a selector

A variable stands in the place of a text in an attribute test, or in the place of a plain
argument of a pseudo-class. The variables of a selector are those of all its compounds, at any
depth. Filling a selector puts the values of its variables in their places and leaves everything
else as it is. That can be done if all its variables have values, and does nothing if it has no
variables.
-/

namespace DocSelect

/-- The variable of an attribute test, if it has one. -/
def AttributeTest.variableNames (t : AttributeTest) : List String :=
  match t.comparison with
  | some (_, .variable name) => [name]
  | some (_, .text _) | none => []

/-- The variable that an argument is, if it is one. -/
def Argument.variableNames : Argument → List String
  | .variable name => [name]
  | .none | .text _ | .formula _ | .selector _ => []

/-- The variables of a compound, those within selector arguments left out. -/
def Compound.variableNames (c : Compound) : List String :=
  c.attributes.flatMap AttributeTest.variableNames ++
    c.pseudos.flatMap fun p ↦ p.argument.variableNames

mutual
/-- The compounds of a selector and those within selector arguments, as far as the names of
pseudo-classes are open. -/
def Selector.compounds (opens : String → Bool) : Selector → List Compound
  | .chain c => Selector.chainCompounds opens c
  | .list cs => Selector.chainsCompounds opens cs

/-- The compounds at and within some alternatives. -/
def Selector.chainsCompounds (opens : String → Bool) : List (Chain Compound) → List Compound
  | [] => []
  | c :: cs => Selector.chainCompounds opens c ++ Selector.chainsCompounds opens cs

/-- The compounds at and within a chain. -/
def Selector.chainCompounds (opens : String → Bool) : Chain Compound → List Compound
  | ⟨head, links⟩ => head.compounds opens ++ Selector.linksCompounds opens links

/-- The compounds at and within some links. -/
def Selector.linksCompounds (opens : String → Bool) : List Compound → List Compound
  | [] => []
  | c :: cs => c.compounds opens ++ Selector.linksCompounds opens cs

/-- A compound and those within it. -/
def Compound.compounds (opens : String → Bool) : Compound → List Compound
  | ⟨type, id, classes, attributes, pseudos, combinator⟩ =>
    ⟨type, id, classes, attributes, pseudos, combinator⟩ :: PseudoClass.allCompounds opens pseudos

/-- The compounds within some pseudo-classes. -/
def PseudoClass.allCompounds (opens : String → Bool) : List PseudoClass → List Compound
  | [] => []
  | p :: ps => p.compounds opens ++ PseudoClass.allCompounds opens ps

/-- The compounds within a pseudo-class, none if its name is not open. -/
def PseudoClass.compounds (opens : String → Bool) : PseudoClass → List Compound
  | ⟨name, argument⟩ => if opens name then argument.compounds opens else []

/-- The compounds within an argument. -/
def Argument.compounds (opens : String → Bool) : Argument → List Compound
  | .selector s => s.compounds opens
  | .none | .text _ | .formula _ | .variable _ => []
end

namespace Selector

/-- The compounds of a selector at any depth. -/
def allCompounds (s : Selector) : List Compound := s.compounds fun _ ↦ true

/-- The variables of a selector at any depth. -/
def variableNames (s : Selector) : List String := s.allCompounds.flatMap Compound.variableNames

/-- The pseudo-classes of a selector at any depth. -/
def pseudos (s : Selector) : List PseudoClass := s.allCompounds.flatMap Compound.pseudos

/-- A selector has no variables if none of its compounds has. -/
theorem variableNames_eq_nil {s : Selector} :
    s.variableNames = [] ↔ ∀ c ∈ s.allCompounds, c.variableNames = [] := List.flatMap_eq_nil_iff

end Selector

/-- Whether an attribute test becomes another one when its variable is replaced by its value. -/
def AttributeTest.FilledBy (bindings : Members String) (t t' : AttributeTest) : Prop :=
  match t.comparison with
  | some (op, .variable name) =>
    ∃ value, bindings.get? name = some value ∧ t' = ⟨t.name, some (op, .text value)⟩
  | some (_, .text _) | none => t' = t

mutual
/-- Whether a selector becomes another one when its variables, at any depth, are replaced by their
values: by texts in attribute tests, by texts or formulas as arguments. -/
def Selector.FilledBy (bindings : Members String) : Selector → Selector → Prop
  | .chain c, s' => ∃ c', s' = .chain c' ∧ Selector.ChainFilledBy bindings c c'
  | .list cs, s' => ∃ cs', s' = .list cs' ∧ Selector.ChainsFilledBy bindings cs cs'
termination_by structural x => x

/-- Whether alternatives become others. -/
def Selector.ChainsFilledBy (bindings : Members String) :
    List (Chain Compound) → List (Chain Compound) → Prop
  | [], cs' => cs' = []
  | c :: cs, ds => ∃ c' cs', ds = c' :: cs' ∧ Selector.ChainFilledBy bindings c c' ∧
      Selector.ChainsFilledBy bindings cs cs'
termination_by structural x => x

/-- Whether a chain becomes another one. -/
def Selector.ChainFilledBy (bindings : Members String) : Chain Compound → Chain Compound → Prop
  | ⟨head, links⟩, c' => head.FilledBy bindings c'.head ∧
      Selector.LinksFilledBy bindings links c'.links
termination_by structural x => x

/-- Whether links become others. -/
def Selector.LinksFilledBy (bindings : Members String) : List Compound → List Compound → Prop
  | [], cs' => cs' = []
  | c :: cs, ds => ∃ c' cs', ds = c' :: cs' ∧ c.FilledBy bindings c' ∧
      Selector.LinksFilledBy bindings cs cs'
termination_by structural x => x

/-- Whether a compound becomes another one. -/
def Compound.FilledBy (bindings : Members String) : Compound → Compound → Prop
  | ⟨type, id, classes, attributes, pseudos, combinator⟩, c' =>
    ∃ attributes' pseudos', c' = ⟨type, id, classes, attributes', pseudos', combinator⟩ ∧
      List.Forall₂ (AttributeTest.FilledBy bindings) attributes attributes' ∧
      PseudoClass.AllFilledBy bindings pseudos pseudos'
termination_by structural x => x

/-- Whether pseudo-classes become others. -/
def PseudoClass.AllFilledBy (bindings : Members String) :
    List PseudoClass → List PseudoClass → Prop
  | [], ps' => ps' = []
  | p :: ps, qs => ∃ p' ps', qs = p' :: ps' ∧ p.FilledBy bindings p' ∧
      PseudoClass.AllFilledBy bindings ps ps'
termination_by structural x => x

/-- Whether a pseudo-class becomes another one. -/
def PseudoClass.FilledBy (bindings : Members String) : PseudoClass → PseudoClass → Prop
  | ⟨name, argument⟩, p' =>
    ∃ argument', p' = ⟨name, argument'⟩ ∧ argument.FilledBy bindings argument'
termination_by structural x => x

/-- Whether an argument becomes another one. -/
def Argument.FilledBy (bindings : Members String) : Argument → Argument → Prop
  | .none, v => v = .none
  | .text s, v => v = .text s
  | .formula s, v => v = .formula s
  | .variable name, v =>
    ∃ value, bindings.get? name = some value ∧ (v = .text value ∨ v = .formula value)
  | .selector s, v => ∃ s', v = .selector s' ∧ s.FilledBy bindings s'
termination_by structural x => x
end

variable {bindings : Members String}

section Closed

/-- An attribute test without a variable becomes nothing but itself. -/
theorem AttributeTest.eq_of_filledBy {t t' : AttributeTest} (hv : t.variableNames = [])
    (h : t.FilledBy bindings t') : t' = t := by
  obtain ⟨name, comparison⟩ := t
  match comparison with
  | none => exact h
  | some (op, .text s) => exact h
  | some (op, .variable n) => cases hv

/-- Attribute tests without variables become nothing but themselves. -/
theorem AttributeTest.eq_of_allFilledBy {ts ts' : List AttributeTest}
    (hv : ts.flatMap variableNames = []) (h : List.Forall₂ (FilledBy bindings) ts ts') :
    ts' = ts := by
  induction h with
  | nil => rfl
  | cons ht _ ih =>
    obtain ⟨hv, hvs⟩ := List.append_eq_nil_iff.1 hv
    rw [eq_of_filledBy hv ht, ih hvs]

mutual
/-- A selector without variables becomes nothing but itself. -/
theorem Selector.eq_of_filledBy : (s : Selector) → {s' : Selector} →
    (∀ c ∈ s.allCompounds, c.variableNames = []) → s.FilledBy bindings s' → s' = s
  | .chain c, _, hv, h => by
    obtain ⟨c', rfl, h⟩ := h
    rw [Selector.eq_of_chainFilledBy c hv h]
  | .list cs, _, hv, h => by
    obtain ⟨cs', rfl, h⟩ := h
    rw [Selector.eq_of_chainsFilledBy cs hv h]

/-- Alternatives without variables become nothing but themselves. -/
theorem Selector.eq_of_chainsFilledBy : (cs : List (Chain Compound)) →
    {cs' : List (Chain Compound)} →
    (∀ c ∈ Selector.chainsCompounds (fun _ ↦ true) cs, c.variableNames = []) →
    Selector.ChainsFilledBy bindings cs cs' → cs' = cs
  | [], _, _, h => h
  | c :: cs, _, hv, h => by
    obtain ⟨c', cs', rfl, hc, hcs⟩ := h
    obtain ⟨hvc, hvcs⟩ := List.forall_mem_append.1 hv
    rw [Selector.eq_of_chainFilledBy c hvc hc, Selector.eq_of_chainsFilledBy cs hvcs hcs]

/-- A chain without variables becomes nothing but itself. -/
theorem Selector.eq_of_chainFilledBy : (c : Chain Compound) → {c' : Chain Compound} →
    (∀ d ∈ Selector.chainCompounds (fun _ ↦ true) c, d.variableNames = []) →
    Selector.ChainFilledBy bindings c c' → c' = c
  | ⟨head, links⟩, ⟨head', links'⟩, hv, h => by
    obtain ⟨hvh, hvl⟩ := List.forall_mem_append.1 hv
    obtain rfl := Compound.eq_of_filledBy head hvh h.1
    obtain rfl := Selector.eq_of_linksFilledBy links hvl h.2
    rfl

/-- Links without variables become nothing but themselves. -/
theorem Selector.eq_of_linksFilledBy : (cs : List Compound) → {cs' : List Compound} →
    (∀ c ∈ Selector.linksCompounds (fun _ ↦ true) cs, c.variableNames = []) →
    Selector.LinksFilledBy bindings cs cs' → cs' = cs
  | [], _, _, h => h
  | c :: cs, _, hv, h => by
    obtain ⟨c', cs', rfl, hc, hcs⟩ := h
    obtain ⟨hvc, hvcs⟩ := List.forall_mem_append.1 hv
    rw [Compound.eq_of_filledBy c hvc hc, Selector.eq_of_linksFilledBy cs hvcs hcs]

/-- A compound without variables becomes nothing but itself. -/
theorem Compound.eq_of_filledBy : (c : Compound) → {c' : Compound} →
    (∀ d ∈ c.compounds fun _ ↦ true, d.variableNames = []) → c.FilledBy bindings c' → c' = c
  | ⟨type, id, classes, attributes, pseudos, combinator⟩, _, hv, h => by
    obtain ⟨attributes', pseudos', rfl, hattributes, hpseudos⟩ := h
    obtain ⟨hvc, hvin⟩ := List.forall_mem_cons.1 hv
    obtain ⟨hva, hvp⟩ := List.append_eq_nil_iff.1 hvc
    rw [AttributeTest.eq_of_allFilledBy hva hattributes,
      PseudoClass.eq_of_allFilledBy pseudos hvp hvin hpseudos]

/-- Pseudo-classes without variables become nothing but themselves. -/
theorem PseudoClass.eq_of_allFilledBy : (ps : List PseudoClass) → {ps' : List PseudoClass} →
    (ps.flatMap fun p ↦ p.argument.variableNames) = [] →
    (∀ c ∈ PseudoClass.allCompounds (fun _ ↦ true) ps, c.variableNames = []) →
    PseudoClass.AllFilledBy bindings ps ps' → ps' = ps
  | [], _, _, _, h => h
  | p :: ps, _, hv, hvin, h => by
    obtain ⟨p', ps', rfl, hp, hps⟩ := h
    obtain ⟨hvp, hvps⟩ := List.append_eq_nil_iff.1 hv
    obtain ⟨hvinp, hvinps⟩ := List.forall_mem_append.1 hvin
    rw [PseudoClass.eq_of_filledBy p hvp hvinp hp,
      PseudoClass.eq_of_allFilledBy ps hvps hvinps hps]

/-- A pseudo-class without variables becomes nothing but itself. -/
theorem PseudoClass.eq_of_filledBy : (p : PseudoClass) → {p' : PseudoClass} →
    p.argument.variableNames = [] → (∀ c ∈ p.compounds fun _ ↦ true, c.variableNames = []) →
    p.FilledBy bindings p' → p' = p
  | ⟨name, argument⟩, _, hv, hvin, h => by
    obtain ⟨argument', rfl, h⟩ := h
    rw [Argument.eq_of_filledBy argument hv hvin h]

/-- An argument without variables becomes nothing but itself. -/
theorem Argument.eq_of_filledBy : (v : Argument) → {v' : Argument} → v.variableNames = [] →
    (∀ c ∈ v.compounds fun _ ↦ true, c.variableNames = []) → v.FilledBy bindings v' → v' = v
  | .none, _, _, _, h => h
  | .text _, _, _, _, h => h
  | .formula _, _, _, _, h => h
  | .variable _, _, hv, _, _ => by cases hv
  | .selector s, _, _, hvin, h => by
    obtain ⟨s', rfl, h⟩ := h
    rw [Selector.eq_of_filledBy s hvin h]
end

end Closed

section Bound

/-- Whether all of some variables have values. -/
def Members.Binds (bindings : Members String) (names : List String) : Prop :=
  ∀ name ∈ names, ∃ value, bindings.get? name = some value

/-- Variables in two places have values if those in either place do. -/
theorem Members.binds_append {ms ns : List String} :
    bindings.Binds (ms ++ ns) ↔ bindings.Binds ms ∧ bindings.Binds ns := List.forall_mem_append

/-- An attribute test can be filled if its variable has a value. -/
theorem AttributeTest.exists_filledBy (t : AttributeTest) (h : bindings.Binds t.variableNames) :
    ∃ t', t.FilledBy bindings t' := by
  obtain ⟨name, comparison⟩ := t
  match comparison with
  | none => exact ⟨_, rfl⟩
  | some (op, .text s) => exact ⟨_, rfl⟩
  | some (op, .variable n) =>
    obtain ⟨value, hvalue⟩ := h n List.mem_cons_self
    exact ⟨_, value, hvalue, rfl⟩

/-- Attribute tests can be filled if their variables have values. -/
theorem AttributeTest.exists_allFilledBy {ts : List AttributeTest}
    (h : bindings.Binds (ts.flatMap variableNames)) :
    ∃ ts', List.Forall₂ (FilledBy bindings) ts ts' := by
  induction ts with
  | nil => exact ⟨[], .nil⟩
  | cons t ts ih =>
    obtain ⟨ht, hts⟩ := Members.binds_append.1 h
    obtain ⟨t', ht⟩ := t.exists_filledBy ht
    obtain ⟨ts', hts⟩ := ih hts
    exact ⟨t' :: ts', .cons ht hts⟩

mutual
/-- A selector can be filled if its variables have values. -/
theorem Selector.exists_filledBy : (s : Selector) →
    (∀ c ∈ s.allCompounds, bindings.Binds c.variableNames) → ∃ s', s.FilledBy bindings s'
  | .chain c, h => by
    obtain ⟨c', hc⟩ := Selector.exists_chainFilledBy c h
    exact ⟨.chain c', c', rfl, hc⟩
  | .list cs, h => by
    obtain ⟨cs', hcs⟩ := Selector.exists_chainsFilledBy cs h
    exact ⟨.list cs', cs', rfl, hcs⟩

/-- Alternatives can be filled if their variables have values. -/
theorem Selector.exists_chainsFilledBy : (cs : List (Chain Compound)) →
    (∀ d ∈ Selector.chainsCompounds (fun _ ↦ true) cs, bindings.Binds d.variableNames) →
    ∃ cs', Selector.ChainsFilledBy bindings cs cs'
  | [], _ => ⟨[], rfl⟩
  | c :: cs, h => by
    obtain ⟨hc, hcs⟩ := List.forall_mem_append.1 h
    obtain ⟨c', hc⟩ := Selector.exists_chainFilledBy c hc
    obtain ⟨cs', hcs⟩ := Selector.exists_chainsFilledBy cs hcs
    exact ⟨c' :: cs', c', cs', rfl, hc, hcs⟩

/-- A chain can be filled if its variables have values. -/
theorem Selector.exists_chainFilledBy : (c : Chain Compound) →
    (∀ d ∈ Selector.chainCompounds (fun _ ↦ true) c, bindings.Binds d.variableNames) →
    ∃ c', Selector.ChainFilledBy bindings c c'
  | ⟨head, links⟩, h => by
    obtain ⟨hhead, hlinks⟩ := List.forall_mem_append.1 h
    obtain ⟨head', hhead⟩ := Compound.exists_filledBy head hhead
    obtain ⟨links', hlinks⟩ := Selector.exists_linksFilledBy links hlinks
    exact ⟨⟨head', links'⟩, hhead, hlinks⟩

/-- Links can be filled if their variables have values. -/
theorem Selector.exists_linksFilledBy : (cs : List Compound) →
    (∀ d ∈ Selector.linksCompounds (fun _ ↦ true) cs, bindings.Binds d.variableNames) →
    ∃ cs', Selector.LinksFilledBy bindings cs cs'
  | [], _ => ⟨[], rfl⟩
  | c :: cs, h => by
    obtain ⟨hc, hcs⟩ := List.forall_mem_append.1 h
    obtain ⟨c', hc⟩ := Compound.exists_filledBy c hc
    obtain ⟨cs', hcs⟩ := Selector.exists_linksFilledBy cs hcs
    exact ⟨c' :: cs', c', cs', rfl, hc, hcs⟩

/-- A compound can be filled if its variables have values. -/
theorem Compound.exists_filledBy : (c : Compound) →
    (∀ d ∈ c.compounds fun _ ↦ true, bindings.Binds d.variableNames) →
    ∃ c', c.FilledBy bindings c'
  | ⟨type, id, classes, attributes, pseudos, combinator⟩, h => by
    obtain ⟨hc, hin⟩ := List.forall_mem_cons.1 h
    obtain ⟨hattributes, hpseudos⟩ := Members.binds_append.1 hc
    obtain ⟨attributes', hattributes⟩ := AttributeTest.exists_allFilledBy hattributes
    obtain ⟨pseudos', hpseudos⟩ := PseudoClass.exists_allFilledBy pseudos hpseudos hin
    exact ⟨_, attributes', pseudos', rfl, hattributes, hpseudos⟩

/-- Pseudo-classes can be filled if their variables have values. -/
theorem PseudoClass.exists_allFilledBy : (ps : List PseudoClass) →
    bindings.Binds (ps.flatMap fun p ↦ p.argument.variableNames) →
    (∀ d ∈ PseudoClass.allCompounds (fun _ ↦ true) ps, bindings.Binds d.variableNames) →
    ∃ ps', PseudoClass.AllFilledBy bindings ps ps'
  | [], _, _ => ⟨[], rfl⟩
  | p :: ps, h, hin => by
    obtain ⟨hp, hps⟩ := Members.binds_append.1 h
    obtain ⟨hinp, hinps⟩ := List.forall_mem_append.1 hin
    obtain ⟨p', hp⟩ := PseudoClass.exists_filledBy p hp hinp
    obtain ⟨ps', hps⟩ := PseudoClass.exists_allFilledBy ps hps hinps
    exact ⟨p' :: ps', p', ps', rfl, hp, hps⟩

/-- A pseudo-class can be filled if its variables have values. -/
theorem PseudoClass.exists_filledBy : (p : PseudoClass) →
    bindings.Binds p.argument.variableNames →
    (∀ d ∈ p.compounds fun _ ↦ true, bindings.Binds d.variableNames) →
    ∃ p', p.FilledBy bindings p'
  | ⟨name, argument⟩, h, hin => by
    obtain ⟨argument', hargument⟩ := Argument.exists_filledBy argument h hin
    exact ⟨⟨name, argument'⟩, argument', rfl, hargument⟩

/-- An argument can be filled if its variables have values. -/
theorem Argument.exists_filledBy : (v : Argument) → bindings.Binds v.variableNames →
    (∀ d ∈ v.compounds fun _ ↦ true, bindings.Binds d.variableNames) →
    ∃ v', v.FilledBy bindings v'
  | .none, _, _ => ⟨.none, rfl⟩
  | .text s, _, _ => ⟨.text s, rfl⟩
  | .formula s, _, _ => ⟨.formula s, rfl⟩
  | .variable name, h, _ => by
    obtain ⟨value, hvalue⟩ := h name List.mem_cons_self
    exact ⟨.text value, value, hvalue, .inl rfl⟩
  | .selector s, _, hin => by
    obtain ⟨s', hs⟩ := Selector.exists_filledBy s hin
    exact ⟨.selector s', s', rfl, hs⟩
end

end Bound

end DocSelect
