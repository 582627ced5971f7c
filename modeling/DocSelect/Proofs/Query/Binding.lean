import DocSelect.Query.Basic
import DocSelect.Tree.Node
import DocSelect.Proofs.Outcome
import DocSelect.Proofs.Selector.Variables

/-!
# The values of variables

When a selector is made ready, its variables are replaced by their values. A value is only ever a
text to compare with, a formula to read, or an argument to hand over: with the values written in
place of the variables the selector means the same, whatever they look like. A variable without
a value is an error. There is one exception to both: a pseudo-class of the caller gets its
selector argument as a text, with the names of variables in it.
-/

namespace DocSelect

variable {α : Type}

namespace QueryOptions

/-- Whether a name is that of a pseudo-class of the caller. Built-in ones win over it. -/
def supplies (o : QueryOptions α) (name : String) : Bool :=
  (bareTest? name : Option (Test α)).isNone && (formulaTest? name).isNone &&
    (selectorTest? name : Option (List (Chain (Matcher α)) → Test α)).isNone &&
    (o.pseudos.get? name).isSome

variable {o : QueryOptions α} {name value : String}

/-- Looking up a variable gives the value that it is bound to. -/
theorem lookup_eq_ok : o.lookup name = .ok value ↔ o.bindings.get? name = some value := by
  unfold lookup
  cases h : o.bindings.get? name with
  | none => simp
  | some v => simp

/-- The pseudo-classes of the caller are those behind all built-in ones. -/
theorem supplies_of_get? {handler : Handler α} (hbare : (bareTest? name : Option (Test α)) = none)
    (hformula : formulaTest? name = none)
    (hselector : (selectorTest? name : Option (List (Chain (Matcher α)) → Test α)) = none)
    (hhandler : o.pseudos.get? name = some handler) : o.supplies name = true := by
  simp [supplies, hbare, hformula, hselector, hhandler]

end QueryOptions

open Outcome

/-- Whether a pseudo-class of the caller has no variables within a selector argument. -/
def PseudoClass.Settled (o : QueryOptions α) (p : PseudoClass) : Prop :=
  ∀ s, p.argument = .selector s → o.supplies p.name = true → s.variableNames = []

section Filled

variable {o : QueryOptions α}

/-- An attribute test means the same with the value of its variable in its place. -/
theorem AttributeTest.resolve_of_filledBy {t t' : AttributeTest} (h : t.FilledBy o.bindings t') :
    t'.resolve o = t.resolve o := by
  obtain ⟨name, comparison⟩ := t
  match comparison with
  | none => rw [show t' = ⟨name, none⟩ from h]
  | some (op, .text s) => rw [show t' = ⟨name, some (op, .text s)⟩ from h]
  | some (op, .variable n) =>
    obtain ⟨value, hvalue, rfl⟩ := h
    rw [resolve, resolve]
    dsimp only
    rw [QueryOptions.lookup_eq_ok.2 hvalue]
    rfl

/-- Attribute tests mean the same with the values of their variables in their places. -/
theorem AttributeTest.resolveAll_of_filledBy {ts ts' : List AttributeTest}
    (h : List.Forall₂ (FilledBy o.bindings) ts ts') : resolveAll o ts' = resolveAll o ts := by
  induction h with
  | nil => rfl
  | cons ht _ ih => rw [resolveAll, resolveAll, resolve_of_filledBy ht, ih]

/-- A pseudo-class means the same with the value of a variable as its argument. -/
theorem PseudoClass.resolve_of_value {name n value : String} {v : Argument}
    (hvalue : o.bindings.get? n = some value) (hv : v = .text value ∨ v = .formula value) :
    (PseudoClass.mk name v).resolve o = (PseudoClass.mk name (.variable n)).resolve o := by
  have hlookup := QueryOptions.lookup_eq_ok.2 hvalue
  have hformula : (Argument.variable n).toFormula o name = readFormula value := by
    rw [Argument.toFormula, hlookup]
    rfl
  have htext : (Argument.variable n).toText o = .ok (some value) := by
    rw [Argument.toText, hlookup]
    rfl
  rw [resolve, resolve, customTest, customTest, hformula, htext]
  rcases hv with rfl | rfl <;> rfl

/-- A pseudo-class means the same with a selector argument that does. One of the caller gets the
argument as a text, so it has to be the same selector. -/
theorem PseudoClass.resolve_of_selector {name : String} {s s' : Selector}
    (hr : s'.resolve o = s.resolve o) (hs : o.supplies name = true → s' = s) :
    (PseudoClass.mk name (.selector s')).resolve o =
      (PseudoClass.mk name (.selector s)).resolve o := by
  rw [resolve, resolve]
  cases hbare : (bareTest? name : Option (Test α)) with
  | some test => rfl
  | none =>
    cases hformula : formulaTest? name with
    | some test => rfl
    | none =>
      cases hselector : (selectorTest? name : Option (List (Chain (Matcher α)) → Test α)) with
      | some test =>
        dsimp only
        rw [hr]
      | none =>
        dsimp only
        cases hhandler : o.pseudos.get? name with
        | none => rw [customTest, customTest, hhandler]
        | some handler =>
          rw [hs (QueryOptions.supplies_of_get? hbare hformula hselector hhandler)]

mutual
/-- A selector means the same with the values of its variables in their places. -/
theorem Selector.resolve_of_filledBy : (s : Selector) → {s' : Selector} →
    (∀ c ∈ s.allCompounds, ∀ p ∈ c.pseudos, p.Settled o) → s.FilledBy o.bindings s' →
    s'.resolve o = s.resolve o
  | .chain c, _, hs, h => by
    obtain ⟨c', rfl, h⟩ := h
    rw [Selector.resolve, Selector.resolve, Selector.resolveChain_of_filledBy c hs h]
  | .list cs, _, hs, h => by
    obtain ⟨cs', rfl, h⟩ := h
    rw [Selector.resolve, Selector.resolve, Selector.resolveChains_of_filledBy cs hs h]

/-- Alternatives mean the same with the values of their variables in their places. -/
theorem Selector.resolveChains_of_filledBy : (cs : List (Chain Compound)) →
    {cs' : List (Chain Compound)} →
    (∀ d ∈ Selector.chainsCompounds (fun _ ↦ true) cs, ∀ p ∈ d.pseudos, p.Settled o) →
    Selector.ChainsFilledBy o.bindings cs cs' →
    Selector.resolveChains o cs' = Selector.resolveChains o cs
  | [], cs', _, h => by rw [show cs' = [] from h]
  | c :: cs, _, hs, h => by
    obtain ⟨c', cs', rfl, hc, hcs⟩ := h
    obtain ⟨hsc, hscs⟩ := List.forall_mem_append.1 hs
    rw [Selector.resolveChains, Selector.resolveChains,
      Selector.resolveChain_of_filledBy c hsc hc, Selector.resolveChains_of_filledBy cs hscs hcs]

/-- A chain means the same with the values of its variables in their places. -/
theorem Selector.resolveChain_of_filledBy : (c : Chain Compound) → {c' : Chain Compound} →
    (∀ d ∈ Selector.chainCompounds (fun _ ↦ true) c, ∀ p ∈ d.pseudos, p.Settled o) →
    Selector.ChainFilledBy o.bindings c c' →
    Selector.resolveChain o c' = Selector.resolveChain o c
  | ⟨head, links⟩, ⟨head', links'⟩, hs, h => by
    obtain ⟨hsh, hsl⟩ := List.forall_mem_append.1 hs
    rw [Selector.resolveChain, Selector.resolveChain, Compound.resolve_of_filledBy head hsh h.1,
      Selector.resolveLinks_of_filledBy links hsl h.2]

/-- Links mean the same with the values of their variables in their places. -/
theorem Selector.resolveLinks_of_filledBy : (cs : List Compound) → {cs' : List Compound} →
    (∀ d ∈ Selector.linksCompounds (fun _ ↦ true) cs, ∀ p ∈ d.pseudos, p.Settled o) →
    Selector.LinksFilledBy o.bindings cs cs' →
    Selector.resolveLinks o cs' = Selector.resolveLinks o cs
  | [], cs', _, h => by rw [show cs' = [] from h]
  | c :: cs, _, hs, h => by
    obtain ⟨c', cs', rfl, hc, hcs⟩ := h
    obtain ⟨hsc, hscs⟩ := List.forall_mem_append.1 hs
    rw [Selector.resolveLinks, Selector.resolveLinks, Compound.resolve_of_filledBy c hsc hc,
      Selector.resolveLinks_of_filledBy cs hscs hcs]

/-- A compound means the same with the values of its variables in their places. -/
theorem Compound.resolve_of_filledBy : (c : Compound) → {c' : Compound} →
    (∀ d ∈ c.compounds fun _ ↦ true, ∀ p ∈ d.pseudos, p.Settled o) →
    c.FilledBy o.bindings c' → c'.resolve o = c.resolve o
  | ⟨type, id, classes, attributes, pseudos, combinator⟩, _, hs, h => by
    obtain ⟨attributes', pseudos', rfl, hattributes, hpseudos⟩ := h
    obtain ⟨hsc, hsin⟩ := List.forall_mem_cons.1 hs
    unfold Compound.resolve
    rw [AttributeTest.resolveAll_of_filledBy hattributes,
      PseudoClass.resolveAll_of_filledBy pseudos hsc hsin hpseudos]

/-- Pseudo-classes mean the same with the values of their variables in their places. -/
theorem PseudoClass.resolveAll_of_filledBy : (ps : List PseudoClass) → {ps' : List PseudoClass} →
    (∀ p ∈ ps, p.Settled o) →
    (∀ d ∈ PseudoClass.allCompounds (fun _ ↦ true) ps, ∀ p ∈ d.pseudos, p.Settled o) →
    PseudoClass.AllFilledBy o.bindings ps ps' →
    PseudoClass.resolveAll o ps' = PseudoClass.resolveAll o ps
  | [], ps', _, _, h => by rw [show ps' = [] from h]
  | p :: ps, _, hs, hsin, h => by
    obtain ⟨p', ps', rfl, hp, hps⟩ := h
    obtain ⟨hsp, hsps⟩ := List.forall_mem_cons.1 hs
    obtain ⟨hsinp, hsinps⟩ := List.forall_mem_append.1 hsin
    rw [PseudoClass.resolveAll, PseudoClass.resolveAll,
      PseudoClass.resolve_of_filledBy p hsp hsinp hp,
      PseudoClass.resolveAll_of_filledBy ps hsps hsinps hps]

/-- A pseudo-class means the same with the values of its variables in their places. One of the
caller has none in a selector argument, which it gets as a text. -/
theorem PseudoClass.resolve_of_filledBy : (p : PseudoClass) → {p' : PseudoClass} → p.Settled o →
    (∀ d ∈ p.compounds fun _ ↦ true, ∀ q ∈ d.pseudos, q.Settled o) →
    p.FilledBy o.bindings p' → p'.resolve o = p.resolve o
  | ⟨name, .none⟩, _, _, _, h | ⟨name, .text _⟩, _, _, _, h | ⟨name, .formula _⟩, _, _, _, h => by
    obtain ⟨_, rfl, rfl⟩ := h
    rfl
  | ⟨name, .variable n⟩, _, _, _, h => by
    obtain ⟨v, rfl, value, hvalue, hv⟩ := h
    exact PseudoClass.resolve_of_value hvalue hv
  | ⟨name, .selector s⟩, _, hs, hsin, h => by
    obtain ⟨_, rfl, s', rfl, h⟩ := h
    refine PseudoClass.resolve_of_selector (Selector.resolve_of_filledBy s hsin h) fun hname ↦ ?_
    exact Selector.eq_of_filledBy s (Selector.variableNames_eq_nil.1 (hs s rfl hname)) h
end

end Filled

section Unbound

variable {o : QueryOptions α}

/-- Whether a pseudo-class has its selector argument made ready, not handed over as a text. -/
def QueryOptions.resolves (o : QueryOptions α) (name : String) : Bool := !o.supplies name

/-- The variables of a selector that are asked for when it is made ready: all but those in selector
arguments of the caller's pseudo-classes. -/
def Selector.resolvedNames (o : QueryOptions α) (s : Selector) : List String :=
  (s.compounds o.resolves).flatMap Compound.variableNames

/-- An attribute test that is resolved has a value for its variable. -/
theorem AttributeTest.bound_of_resolve {t : AttributeTest} {m : AttributeMatcher}
    (h : t.resolve o = .ok m) : o.bindings.Binds t.variableNames := by
  obtain ⟨name, comparison⟩ := t
  match comparison with
  | none => exact List.forall_mem_nil _
  | some (op, .text s) => exact List.forall_mem_nil _
  | some (op, .variable n) =>
    obtain ⟨value, hvalue, _⟩ := bind_eq_ok.1 h
    exact List.forall_mem_singleton.2 ⟨value, QueryOptions.lookup_eq_ok.1 hvalue⟩

/-- Attribute tests that are resolved have values for their variables. -/
theorem AttributeTest.bound_of_resolveAll {ts : List AttributeTest} {ms : List AttributeMatcher}
    (h : resolveAll o ts = .ok ms) : o.bindings.Binds (ts.flatMap variableNames) := by
  induction ts generalizing ms with
  | nil => exact List.forall_mem_nil _
  | cons t ts ih =>
    obtain ⟨m, hm, h⟩ := bind_eq_ok.1 h
    obtain ⟨ms', hms, _⟩ := bind_eq_ok.1 h
    exact Members.binds_append.2 ⟨bound_of_resolve hm, ih hms⟩

/-- A pseudo-class that is resolved takes no argument, a formula, a selector that is resolved, or
is one of the caller. -/
theorem PseudoClass.cases_of_resolve {name : String} {v : Argument} {t : Test α}
    (h : (PseudoClass.mk name v).resolve o = .ok t) :
    v = .none ∨ (∃ formula, v.toFormula o name = .ok formula) ∨
      (∃ s ms, v = .selector s ∧ s.resolve o = .ok ms) ∨
      o.supplies name = true ∧ ∃ text, v.toText o = .ok text := by
  rw [resolve] at h
  split at h
  · unfold Argument.refuse at h
    split at h
    · exact .inl rfl
    · cases h
  · next hbare =>
    split at h
    · obtain ⟨formula, hformula, _⟩ := bind_eq_ok.1 h
      exact .inr (.inl ⟨formula, hformula⟩)
    · next hformula =>
      split at h
      · split at h
        · next s =>
          obtain ⟨ms, hms, _⟩ := bind_eq_ok.1 h
          exact .inr (.inr (.inl ⟨s, ms, rfl, hms⟩))
        · cases h
      · next hselector =>
        unfold customTest at h
        split at h
        · cases h
        · next handler hhandler =>
          obtain ⟨text, htext, _⟩ := bind_eq_ok.1 h
          have hname := QueryOptions.supplies_of_get? hbare hformula hselector hhandler
          exact .inr (.inr (.inr ⟨hname, text, htext⟩))

/-- A pseudo-class that is resolved has a value for a variable as its argument. -/
theorem PseudoClass.bound_of_variable {name n : String} {t : Test α}
    (h : (PseudoClass.mk name (.variable n)).resolve o = .ok t) :
    ∃ value, o.bindings.get? n = some value := by
  rcases cases_of_resolve h with hv | ⟨formula, hformula⟩ | ⟨s, ms, hv, _⟩ | ⟨_, text, htext⟩
  · cases hv
  · obtain ⟨value, hvalue, _⟩ := bind_eq_ok.1 hformula
    exact ⟨value, QueryOptions.lookup_eq_ok.1 hvalue⟩
  · cases hv
  · obtain ⟨value, hvalue, _⟩ := bind_eq_ok.1 htext
    exact ⟨value, QueryOptions.lookup_eq_ok.1 hvalue⟩

/-- A pseudo-class that is resolved, and is none of the caller, has resolved its selector
argument. -/
theorem PseudoClass.exists_resolve {name : String} {s : Selector} {t : Test α}
    (hname : o.resolves name = true) (h : (PseudoClass.mk name (.selector s)).resolve o = .ok t) :
    ∃ ms, s.resolve o = .ok ms := by
  rcases cases_of_resolve h with hv | ⟨formula, hformula⟩ | ⟨s', ms, hv, hms⟩ | ⟨hcaller, _⟩
  · cases hv
  · cases hformula
  · obtain rfl := Argument.selector.inj hv
    exact ⟨ms, hms⟩
  · rw [QueryOptions.resolves, hcaller] at hname
    cases hname

mutual
/-- A selector that is resolved has values for the variables that are asked for. -/
theorem Selector.bound_of_resolve : (s : Selector) → {ms : List (Chain (Matcher α))} →
    s.resolve o = .ok ms → ∀ c ∈ s.compounds o.resolves, o.bindings.Binds c.variableNames
  | .chain c, _, h => by
    rw [Selector.resolve] at h
    obtain ⟨m, hm, _⟩ := bind_eq_ok.1 h
    exact Selector.bound_of_resolveChain c hm
  | .list cs, _, h => by
    rw [Selector.resolve] at h
    exact Selector.bound_of_resolveChains cs h

/-- Alternatives that are resolved have values for the variables that are asked for. -/
theorem Selector.bound_of_resolveChains : (cs : List (Chain Compound)) →
    {ms : List (Chain (Matcher α))} → Selector.resolveChains o cs = .ok ms →
    ∀ d ∈ Selector.chainsCompounds o.resolves cs, o.bindings.Binds d.variableNames
  | [], _, _ => List.forall_mem_nil _
  | c :: cs, _, h => by
    rw [Selector.resolveChains] at h
    obtain ⟨m, hm, h⟩ := bind_eq_ok.1 h
    obtain ⟨ms, hms, _⟩ := bind_eq_ok.1 h
    rw [Selector.chainsCompounds]
    exact List.forall_mem_append.2
      ⟨Selector.bound_of_resolveChain c hm, Selector.bound_of_resolveChains cs hms⟩

/-- A chain that is resolved has values for the variables that are asked for. -/
theorem Selector.bound_of_resolveChain : (c : Chain Compound) → {m : Chain (Matcher α)} →
    Selector.resolveChain o c = .ok m →
    ∀ d ∈ Selector.chainCompounds o.resolves c, o.bindings.Binds d.variableNames
  | ⟨head, links⟩, _, h => by
    rw [Selector.resolveChain] at h
    obtain ⟨m, hm, h⟩ := bind_eq_ok.1 h
    obtain ⟨ms, hms, _⟩ := bind_eq_ok.1 h
    rw [Selector.chainCompounds]
    exact List.forall_mem_append.2
      ⟨Compound.bound_of_resolve head hm, Selector.bound_of_resolveLinks links hms⟩

/-- Links that are resolved have values for the variables that are asked for. -/
theorem Selector.bound_of_resolveLinks : (cs : List Compound) → {ms : List (Matcher α)} →
    Selector.resolveLinks o cs = .ok ms →
    ∀ d ∈ Selector.linksCompounds o.resolves cs, o.bindings.Binds d.variableNames
  | [], _, _ => List.forall_mem_nil _
  | c :: cs, _, h => by
    rw [Selector.resolveLinks] at h
    obtain ⟨m, hm, h⟩ := bind_eq_ok.1 h
    obtain ⟨ms, hms, _⟩ := bind_eq_ok.1 h
    rw [Selector.linksCompounds]
    exact List.forall_mem_append.2
      ⟨Compound.bound_of_resolve c hm, Selector.bound_of_resolveLinks cs hms⟩

/-- A compound that is resolved has values for the variables that are asked for. -/
theorem Compound.bound_of_resolve : (c : Compound) → {m : Matcher α} → c.resolve o = .ok m →
    ∀ d ∈ c.compounds o.resolves, o.bindings.Binds d.variableNames
  | ⟨type, id, classes, attributes, pseudos, combinator⟩, _, h => by
    unfold Compound.resolve at h
    obtain ⟨as, has, h⟩ := bind_eq_ok.1 h
    obtain ⟨ts, hts, _⟩ := bind_eq_ok.1 h
    obtain ⟨hpseudos, hin⟩ := PseudoClass.bound_of_resolveAll pseudos hts
    rw [Compound.compounds]
    exact List.forall_mem_cons.2
      ⟨Members.binds_append.2 ⟨AttributeTest.bound_of_resolveAll has, hpseudos⟩, hin⟩

/-- Pseudo-classes that are resolved have values for the variables that are asked for. -/
theorem PseudoClass.bound_of_resolveAll : (ps : List PseudoClass) → {ts : List (Test α)} →
    PseudoClass.resolveAll o ps = .ok ts →
    o.bindings.Binds (ps.flatMap fun p ↦ p.argument.variableNames) ∧
      ∀ d ∈ PseudoClass.allCompounds o.resolves ps, o.bindings.Binds d.variableNames
  | [], _, _ => ⟨List.forall_mem_nil _, List.forall_mem_nil _⟩
  | p :: ps, _, h => by
    rw [PseudoClass.resolveAll] at h
    obtain ⟨t, ht, h⟩ := bind_eq_ok.1 h
    obtain ⟨ts, hts, _⟩ := bind_eq_ok.1 h
    obtain ⟨hp, hin⟩ := PseudoClass.bound_of_resolve p ht
    obtain ⟨hps, hins⟩ := PseudoClass.bound_of_resolveAll ps hts
    rw [PseudoClass.allCompounds]
    exact ⟨Members.binds_append.2 ⟨hp, hps⟩, List.forall_mem_append.2 ⟨hin, hins⟩⟩

/-- A pseudo-class that is resolved has values for the variables that are asked for. -/
theorem PseudoClass.bound_of_resolve : (p : PseudoClass) → {t : Test α} → p.resolve o = .ok t →
    o.bindings.Binds p.argument.variableNames ∧
      ∀ d ∈ p.compounds o.resolves, o.bindings.Binds d.variableNames
  | ⟨name, .none⟩, _, _ | ⟨name, .text _⟩, _, _ | ⟨name, .formula _⟩, _, _ => by
    rw [PseudoClass.compounds]
    refine ⟨List.forall_mem_nil _, ?_⟩
    split <;> exact List.forall_mem_nil _
  | ⟨name, .variable n⟩, _, h => by
    rw [PseudoClass.compounds]
    refine ⟨List.forall_mem_singleton.2 (PseudoClass.bound_of_variable h), ?_⟩
    split <;> exact List.forall_mem_nil _
  | ⟨name, .selector s⟩, _, h => by
    rw [PseudoClass.compounds]
    refine ⟨List.forall_mem_nil _, ?_⟩
    split
    · next hname =>
      obtain ⟨ms, hms⟩ := PseudoClass.exists_resolve hname h
      exact Selector.bound_of_resolve s hms
    · exact List.forall_mem_nil _
end

end Unbound

namespace Query

variable {o : QueryOptions α} {s : Selector}

/-- A selector all of whose variables are bound can be written with their values in their places,
and then it fails alike or gives a query with the same answers, whatever the values look like. No
variable may stand in a selector argument of a pseudo-class of the caller. -/
theorem ofSelector_of_filledBy [Element α] (hbound : o.bindings.Binds s.variableNames)
    (hsettled : ∀ p ∈ s.pseudos, p.Settled o) :
    (∃ s', s.FilledBy o.bindings s') ∧ ∀ s', s.FilledBy o.bindings s' →
      (∃ e, ofSelector o s = .error e ∧ ofSelector o s' = .error e) ∨
      ∃ q q', ofSelector o s = .ok q ∧ ofSelector o s' = .ok q' ∧
        (∀ root, q.findAll root = q'.findAll root) ∧
        (∀ root, q.findFirst root = q'.findFirst root) ∧
        ∀ node parent, q.matchesAt node parent = q'.matchesAt node parent := by
  refine ⟨Selector.exists_filledBy s (List.forall_mem_flatMap.1 hbound), fun s' h ↦ ?_⟩
  have hs : s'.resolve o = s.resolve o :=
    Selector.resolve_of_filledBy s (List.forall_mem_flatMap.1 hsettled) h
  unfold ofSelector
  rw [hs]
  cases s.resolve o with
  | error e => exact .inl ⟨e, rfl, rfl⟩
  | ok alternatives =>
    exact .inr ⟨_, _, rfl, rfl, fun _ ↦ rfl, fun _ ↦ rfl, fun _ _ ↦ rfl⟩

/-- With `"], *` as the value of `x`, the selector `[b=$x]:within($x)` means what it means with
that text quoted in both places. -/
theorem ofSelector_of_filledBy_quote :
    let o : QueryOptions Content :=
      (QueryOptions.default.bind "x" "\"], *").withPseudo "within" fun _ _ ↦ true
    let part (operand : Operand) (argument : Argument) : Selector :=
      .chain ⟨⟨none, none, [], [⟨"b", some (.equals, operand)⟩], [⟨"within", argument⟩], none⟩, []⟩
    let s := part (.variable "x") (.variable "x")
    let s' := part (.text "\"], *") (.text "\"], *")
    o.bindings.Binds s.variableNames ∧ (∀ p ∈ s.pseudos, p.Settled o) ∧
      s.FilledBy o.bindings s' ∧ ∃ q q', ofSelector o s = .ok q ∧ ofSelector o s' = .ok q' ∧
        ∀ root, q.findAll root = q'.findAll root := by
  intro o part s s'
  have hvalue : o.bindings.get? "x" = some "\"], *" := rfl
  have hbound : o.bindings.Binds s.variableNames := by
    intro name hname
    obtain rfl : name = "x" := by simpa [show s.variableNames = ["x", "x"] from rfl] using hname
    exact ⟨_, hvalue⟩
  have hsettled : ∀ p ∈ s.pseudos, p.Settled o := by
    intro p hp t ht
    obtain rfl : p = ⟨"within", .variable "x"⟩ := List.mem_singleton.1 hp
    cases ht
  have hfilled : s.FilledBy o.bindings s' :=
    ⟨_, rfl, ⟨_, _, rfl, .cons ⟨_, hvalue, rfl⟩ .nil,
      ⟨_, _, rfl, ⟨_, rfl, _, hvalue, .inl rfl⟩, rfl⟩⟩, rfl⟩
  refine ⟨hbound, hsettled, hfilled, ?_⟩
  rcases (ofSelector_of_filledBy hbound hsettled).2 s' hfilled with ⟨e, he, _⟩ | ⟨q, q', hq, hq', h⟩
  · cases he
  · exact ⟨q, q', hq, hq', h.1⟩

/-- A selector cannot be made ready if a variable is not bound that stands anywhere but in a
selector argument of a pseudo-class of the caller. -/
theorem ofSelector_of_unbound {name : String} (hname : name ∈ s.resolvedNames o)
    (hnone : o.bindings.get? name = none) : ∃ e, ofSelector o s = .error e := by
  cases h : ofSelector o s with
  | error e => exact ⟨e, rfl⟩
  | ok q =>
    obtain ⟨alternatives, hr, _⟩ := bind_eq_ok.1 h
    have hbound := List.forall_mem_flatMap.2 (Selector.bound_of_resolve s hr)
    obtain ⟨value, hvalue⟩ := hbound name hname
    rw [hnone] at hvalue
    cases hvalue

/-- The selector `:not([b=$x])` cannot be made ready without a value of `x`. -/
theorem ofSelector_not_unbound :
    let o : QueryOptions Content := .default
    let inner : Selector :=
      .chain ⟨⟨none, none, [], [⟨"b", some (.equals, .variable "x")⟩], [], none⟩, []⟩
    let s : Selector := .chain ⟨⟨none, none, [], [], [⟨"not", .selector inner⟩], none⟩, []⟩
    "x" ∈ s.resolvedNames o ∧ o.bindings.get? "x" = none ∧ ∃ e, ofSelector o s = .error e := by
  intro o inner s
  have hname : "x" ∈ s.resolvedNames o := by decide
  exact ⟨hname, rfl, ofSelector_of_unbound hname rfl⟩

/-- Within a pseudo-class of the caller a variable needs no value: `:within([b=$x])` is made
ready without a value of `x`, and the name of the variable is handed over. -/
theorem ofSelector_within_unbound :
    let handler : Handler Content := fun _ argument ↦ argument == some "[b=$x]"
    let o : QueryOptions Content := QueryOptions.default.withPseudo "within" handler
    let inner : Selector :=
      .chain ⟨⟨none, none, [], [⟨"b", some (.equals, .variable "x")⟩], [], none⟩, []⟩
    let s : Selector := .chain ⟨⟨none, none, [], [], [⟨"within", .selector inner⟩], none⟩, []⟩
    "x" ∈ s.variableNames ∧ o.bindings.get? "x" = none ∧
      ofSelector o s = .ok ⟨s,
        [⟨⟨none, none, [], [], [.custom handler (some "[b=$x]")], none⟩, []⟩], 512⟩ := by
  intro handler o inner s
  have htext : inner.render = "[b=$x]" := by decide +kernel
  have hwithin : (PseudoClass.mk "within" (.selector inner)).resolve o =
      .ok (.custom handler (some "[b=$x]")) := by
    rw [← htext]
    rfl
  refine ⟨by decide, rfl, ?_⟩
  simp only [ofSelector, s, Selector.resolve, Selector.resolveChain, Selector.resolveLinks,
    Compound.resolve, AttributeTest.resolveAll, PseudoClass.resolveAll, hwithin]
  rfl

end Query

end DocSelect
