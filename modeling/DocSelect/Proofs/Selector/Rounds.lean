import DocSelect.Proofs.Selector.Lookahead
import DocSelect.Proofs.Selector.Repetition

/-!
# Rounds of the grammar

The rules of the grammar that repeat are loops too. A compound is a loop over its components: its
type test, which only the first round may read, and its parts. A chain is a loop over its links
behind its head, and a selector is a loop over its chains. A round tries to read an item, and comes
out with none where it took nothing. The readers of the grammar look ahead instead, whether a
compound can begin, and so each has to be shown to read what its rounds read.
-/

namespace DocSelect

open Text (AtMost skipBlank)

/-- What a compound is read as: a type test, or a part. -/
inductive Component where
  | type (test : TypeTest)
  | part (part : Part)

namespace Component

/-- The type test that a component is. -/
def type? : Component → Option TypeTest
  | type test => some test
  | part _ => none

/-- The part that a component is. -/
def part? : Component → Option Part
  | type _ => none
  | part p => some p

/-- The components that are a type test, if there is one, and some parts. -/
def list (type : Option TypeTest) (parts : List Part) : List Component :=
  type.toList.map .type ++ parts.map .part

end Component

/-- The compound of some components, if there are any. -/
def Compound.ofComponents? (cs : List Component) : Option Compound :=
  if cs.isEmpty then none
  else some (.ofParts (cs.findSome? Component.type?) (cs.filterMap Component.part?))

/-- A type test and parts make up their compound, if they are not nothing. -/
theorem Compound.ofComponents?_list {type : Option TypeTest} {parts : List Part}
    (h : Component.list type parts ≠ []) :
    ofComponents? (Component.list type parts) = some (ofParts type parts) := by
  have htype : (parts.map Component.part).findSome? Component.type? = none := by
    rw [List.findSome?_eq_none_iff]
    intro c hc
    obtain ⟨p, -, rfl⟩ := List.mem_map.1 hc
    rfl
  have hparts : (parts.map Component.part).filterMap Component.part? = parts := by
    rw [List.filterMap_map]
    exact List.filterMap_some (l := parts)
  rw [ofComponents?, if_neg (by simpa using h)]
  cases type with
  | none =>
    show some (ofParts ((parts.map Component.part).findSome? Component.type?)
      ((parts.map Component.part).filterMap Component.part?)) = _
    rw [htype, hparts]
  | some test =>
    show some (ofParts (some test) ((parts.map Component.part).filterMap Component.part?)) = _
    rw [hparts]

namespace Grammar

open Lexeme (Gives Taken Reads Shortens Advances Unrolls LoopOutcome outcome behindRound)

variable {d : Dialect} {cs rest : List Char}

/-! ### Parts of a compound -/

/-- The part at the start of a text, if there is one. -/
def part? (d : Dialect) (cs : List Char) : Taken (Option Part) cs.length :=
  match cs with
  | '.' :: t => do
    let (name, rest) ← Lexeme.requiredName '.' t
    return (some (.className name), .behind rest)
  | '#' :: t => do
    let (name, rest) ← Lexeme.requiredName '#' t
    return (some (.id name), .behind rest)
  | '[' :: t => do
    let (test, rest) ← attributeTest d t
    return (some (.attr test), .behind rest)
  | ':' :: t => do
    let (test, rest) ← pseudoClass d t
    return (some (.pseudo test), .behind rest)
  | cs => .ok (none, .whole cs)

private theorem advances_part (d : Dialect) : Advances fun _ ↦ part? d := by
  intro k cs
  show Shortens cs (part? d cs)
  have hmark {c : Char} {t : List Char} {α : Type} {x : Taken α t.length} (h : Reads t x) :
      Reads (c :: t) x := h.of_suffix (List.suffix_cons c t)
  unfold part?
  split
  · next t =>
    exact Shortens.made (g := Part.className) (hmark (Lexeme.reads_requiredName '.' t))
      (Nat.lt_succ_self _)
  · next t =>
    exact Shortens.made (g := Part.id) (hmark (Lexeme.reads_requiredName '#' t))
      (Nat.lt_succ_self _)
  · next t =>
    exact Shortens.made (g := Part.attr) (hmark (reads_attributeTest t)) (Nat.lt_succ_self _)
  · next t =>
    exact Shortens.made (g := Part.pseudo) (hmark (reads_pseudoClass t)) (Nat.lt_succ_self _)
  · exact Shortens.of_none

private theorem unrolls_parts (d : Dialect) : Unrolls (fun _ ↦ part? d) fun _ ↦ parts d := by
  intro k cs
  show outcome (parts d cs) = outcome (part? d cs) >>= behindRound fun r ↦ outcome (parts d r)
  unfold part?
  split
  · next t =>
    rw [parts]
    exact Lexeme.outcome_bind fun name r ↦
      Lexeme.outcome_cons (Part.className name) (Nat.le_succ_of_le r.2)
  · next t =>
    rw [parts]
    exact Lexeme.outcome_bind fun name r ↦
      Lexeme.outcome_cons (Part.id name) (Nat.le_succ_of_le r.2)
  · next t =>
    rw [parts]
    exact Lexeme.outcome_bind fun test r ↦
      Lexeme.outcome_cons (Part.attr test) (Nat.le_succ_of_le r.2)
  · next t =>
    rw [parts]
    exact Lexeme.outcome_bind fun test r ↦
      Lexeme.outcome_cons (Part.pseudo test) (Nat.le_succ_of_le r.2)
  · next h₁ h₂ h₃ h₄ =>
    rw [parts]
    · rfl
    · exact h₁
    · exact h₂
    · exact h₃
    · exact h₄

/-- The type test at the start of a text, if there is one. Behind other components there is none. -/
def openingType (k : Nat) (cs : List Char) : Taken (Option TypeTest) cs.length :=
  match k with
  | 0 => typeTest cs
  | _ + 1 => .ok (none, .whole cs)

/-- The component at the start of a text, if there is one. -/
def component? (d : Dialect) (k : Nat) (cs : List Char) : Taken (Option Component) cs.length := do
  let (type, r) ← openingType k cs
  match type with
  | some test => return (some (.type test), r)
  | none =>
    let (part, r') ← part? d r.1
    return (part.map .part, .within r r')

/-- The components at the start of a text, behind others. -/
def components (d : Dialect) (k : Nat) (cs : List Char) : Taken (List Component) cs.length := do
  let (type, r) ← openingType k cs
  let (parts, r') ← parts d r.1
  return (Component.list type parts, .within r r')

/-- The compound of the components at the start of a text, if there are any. -/
def compound? (d : Dialect) (cs : List Char) : Taken (Option Compound) cs.length := do
  let (components, r) ← components d 0 cs
  return (Compound.ofComponents? components, r)

private theorem reads_openingType (k : Nat) (cs : List Char) : Reads cs (openingType k cs) := by
  cases k with
  | zero => exact reads_typeTest cs
  | succ k => exact Reads.of_ok (List.suffix_refl cs)

private theorem length_lt_openingType {k : Nat} {type : TypeTest}
    (h : Gives (openingType k cs) (some type) rest) : rest.length < cs.length := by
  cases k with
  | zero =>
    rcases gives_typeTest.1 h with ⟨rfl, _⟩ | ⟨hname, _, hchars, _⟩ | ⟨_, _, hnone, _⟩
    · exact Nat.lt_succ_self _
    · exact (hchars.name_of_startsName hname).2
    · cases hnone
  | succ k => cases (Lexeme.gives_ok.1 h).1

/-- A component takes some of the text. -/
theorem advances_component (d : Dialect) : Advances (component? d) := by
  intro k cs
  apply Shortens.bind
  intro type r htype
  have hr := (reads_openingType k cs).rest htype
  cases type with
  | some type => exact Shortens.of_ok hr (length_lt_openingType htype)
  | none =>
    apply Shortens.bind
    intro part r' hpart
    cases part with
    | none => exact Shortens.of_none
    | some part =>
      obtain ⟨hr', hlt⟩ := advances_part d k r hpart
      exact Shortens.of_ok (hr'.trans hr) (Nat.lt_of_lt_of_le hlt hr.length_le)

/-- A reader that makes a value from what another reader gives. -/
theorem outcome_map {α β : Type} {m n : Nat} {x : Taken β m} (f : β → α) {g : AtMost m → AtMost n}
    (hg : ∀ r, (g r).1 = r.1) :
    outcome (x >>= fun a ↦ .ok (f a.1, g a.2)) = (outcome x).map (Prod.map f id) := by
  cases x with
  | error p => rfl
  | ok a => exact congrArg (fun r ↦ Except.ok (f a.1, r)) (hg a.2)

/-- Behind other components there are parts only. -/
theorem outcome_components_succ (d : Dialect) (k : Nat) (cs : List Char) :
    outcome (components d (k + 1) cs) =
      (outcome (parts d cs)).map (Prod.map (Component.list none) id) :=
  outcome_map (Component.list none) fun _ ↦ rfl

/-- Components are read one by one. -/
theorem unrolls_components (d : Dialect) : Unrolls (component? d) (components d) := by
  intro k cs
  apply Lexeme.outcome_bind
  intro type r
  have hloop : outcome (do
      let (parts, r') ← parts d r.1
      return (Component.list type parts, AtMost.within r r')) =
        (outcome (parts d r.1)).map (Prod.map (Component.list type) id) :=
    outcome_map (Component.list type) fun _ ↦ rfl
  refine hloop.trans ?_
  cases type with
  | some test =>
    show _ = LoopOutcome.cons (Component.type test) (outcome (components d (k + 1) r.1))
    rw [outcome_components_succ]
    cases outcome (parts d r.1) with
    | error p => rfl
    | ok a => rfl
  | none =>
    have hround : outcome (do
        let (part, r') ← part? d r.1
        return (part.map Component.part, AtMost.within r r')) =
          (outcome (part? d r.1)).map (Prod.map (Option.map Component.part) id) :=
      outcome_map (Option.map Component.part) fun _ ↦ rfl
    show _ = outcome (do
        let (part, r') ← part? d r.1
        return (part.map Component.part, AtMost.within r r')) >>= _
    rw [hround, unrolls_parts d 0 r.1]
    cases outcome (part? d r.1) with
    | error p => rfl
    | ok a =>
      obtain ⟨part, r'⟩ := a
      cases part with
      | none => rfl
      | some part =>
        show Except.map _ (LoopOutcome.cons part (outcome (parts d r'))) =
          LoopOutcome.cons (Component.part part) (outcome (components d (k + 1) r'))
        rw [outcome_components_succ]
        cases outcome (parts d r') with
        | error p => rfl
        | ok a => rfl

/-! ### Compounds and chains -/

/-- Where a compound can begin, it has a component. -/
theorem components_ne_nil {type : Option TypeTest} {r : List Char} {ps : List Part}
    (hs : startsCompound cs = true) (htype : Gives (typeTest cs) type r)
    (hps : Gives (parts d r) ps rest) : Component.list type ps ≠ [] := by
  intro hnil
  have hblank := isBlank_compound hs (gives_compound.2 ⟨type, r, ps, htype, hps, rfl⟩)
  obtain ⟨htype', hps'⟩ := List.append_eq_nil_iff.1 hnil
  rw [Option.toList_eq_nil_iff.1 (List.map_eq_nil_iff.1 htype'), List.map_eq_nil_iff.1 hps']
    at hblank
  cases hblank

/-- Where a compound can begin, the loop over its components gives it. -/
theorem compound?_of_startsCompound (hs : startsCompound cs = true) :
    compound? d cs = do
      let (c, r) ← compound d cs
      return (some c, r) := by
  rw [compound, compound?, components]
  cases htype : openingType 0 cs with
  | error p =>
    have htype : typeTest cs = .error p := htype
    rw [htype]
    rfl
  | ok a =>
    obtain ⟨type, r, hr⟩ := a
    have htype : typeTest cs = .ok (type, ⟨r, hr⟩) := htype
    rw [htype]
    simp only [Outcome.ok_bind]
    cases hparts : parts d r with
    | error p => rfl
    | ok a =>
      obtain ⟨ps, r', hr'⟩ := a
      have hne := components_ne_nil hs ⟨hr, htype⟩ ⟨hr', hparts⟩
      show Except.ok (Compound.ofComponents? (Component.list type ps), _) = _
      rw [Compound.ofComponents?_list hne]
      rfl

/-- Where no compound can begin, the loop over the components of one reads nothing. -/
theorem compound?_of_not_startsCompound (hs : startsCompound cs = false) :
    compound? d cs = .ok (none, .whole cs) := by
  have htype : typeTest cs = .ok (none, .whole cs) := by
    unfold typeTest
    split
    · rfl
    · cases hs
    · next c t _ =>
      have hname : ¬ ((Lexeme.isNameStart c || c = '\\') = true) := by
        intro h
        rcases Bool.or_eq_true_iff.1 h with h | h
        · simp [startsCompound, h] at hs
        · obtain rfl := of_decide_eq_true h
          cases hs
      rw [if_neg hname]
  have hparts : parts d cs = .ok ([], .whole cs) := by
    rw [parts]
    all_goals
      rintro t rfl
      cases hs
  have htype : openingType 0 cs = .ok (none, .whole cs) := htype
  rw [compound?, components, htype]
  show ((parts d cs) >>= _) >>= _ = _
  rw [hparts]
  rfl

/-- The loop over the components of a compound gives none if it takes nothing, and otherwise a
compound. -/
theorem gives_compound? {v : Option Compound} (h : Gives (compound? d cs) v rest) :
    v = none ∧ rest = cs ∨
      ∃ c, v = some c ∧ rest.length < cs.length ∧ Gives (compound d cs) c rest := by
  cases hs : startsCompound cs with
  | false =>
    rw [compound?_of_not_startsCompound hs] at h
    exact .inl (Lexeme.gives_ok.1 h)
  | true =>
    rw [compound?_of_startsCompound hs] at h
    obtain ⟨c, r, hc, h⟩ := Lexeme.gives_bind.1 h
    obtain ⟨rfl, rfl⟩ := Lexeme.gives_pure.1 h
    exact .inr ⟨c, rfl, length_lt_compound hs hc, hc⟩

/-- What stands behind a compound is an end of the text. -/
theorem suffix_compound {v : Option Compound} (h : Gives (compound? d cs) v rest) :
    rest <:+ cs := by
  rcases gives_compound? h with ⟨_, rfl⟩ | ⟨c, _, _, hc⟩
  · exact List.suffix_refl rest
  · exact (reads_compound cs).rest hc

private theorem shortens_compound (d : Dialect) (cs : List Char) :
    Shortens cs (compound? d cs) := by
  intro c r h
  rcases gives_compound? h with ⟨hnone, _⟩ | ⟨_, _, hlt, _⟩
  · cases hnone
  · exact ⟨suffix_compound h, hlt⟩

/-- The chain behind the blanks at the start of a text, if there is one. -/
def chain? (d : Dialect) (cs : List Char) : Taken (Option (Chain Compound)) cs.length := do
  let start : AtMost cs.length := ⟨skipBlank cs, Text.length_skipBlank_le cs⟩
  let (head, r) ← compound? d start.1
  match head with
  | none => return (none, .within start r)
  | some head =>
    let (links, r') ← links d r.1
    return (some ⟨head, links⟩, .within start (.within r r'))

private theorem chain?_of_startsCompound (hs : startsCompound (skipBlank cs) = true) :
    chain? d cs = do
      let (c, ⟨r, h⟩) ← chain d (skipBlank cs)
      return (some c, ⟨r, Nat.le_trans h (Text.length_skipBlank_le cs)⟩) := by
  rw [chain?, compound?_of_startsCompound hs, chain]
  cases compound d (skipBlank cs) with
  | error p => rfl
  | ok a =>
    obtain ⟨head, r, hr⟩ := a
    show links d r >>= _ = links d r >>= _ >>= _
    cases links d r with
    | error p => rfl
    | ok a => rfl

private theorem chain?_of_not_startsCompound (hs : startsCompound (skipBlank cs) = false) :
    chain? d cs = .ok (none, ⟨skipBlank cs, Text.length_skipBlank_le cs⟩) := by
  rw [chain?, compound?_of_not_startsCompound hs]
  rfl

/-- What stands behind a chain is an end of the text behind its blanks. -/
theorem suffix_chain {v : Option (Chain Compound)} (h : Gives (chain? d cs) v rest) :
    rest <:+ skipBlank cs := by
  obtain ⟨head, r, hhead, h⟩ := Lexeme.gives_bind.1 h
  have hr : r <:+ skipBlank cs := suffix_compound hhead
  cases head with
  | none =>
    obtain ⟨_, rfl⟩ := Lexeme.gives_pure.1 h
    exact hr
  | some head =>
    obtain ⟨links, r', hlinks, h⟩ := Lexeme.gives_bind.1 h
    obtain ⟨_, rfl⟩ := Lexeme.gives_pure.1 h
    exact ((reads_links r).rest hlinks).trans ((skipBlank_suffix r).trans hr)

private theorem shortens_chain (d : Dialect) (cs : List Char) : Shortens cs (chain? d cs) := by
  intro c r h
  refine ⟨(suffix_chain h).trans (skipBlank_suffix cs), ?_⟩
  have h₀ := Text.length_skipBlank_le cs
  cases hs : startsCompound (skipBlank cs) with
  | false =>
    rw [chain?_of_not_startsCompound hs] at h
    cases (Lexeme.gives_ok.1 h).1
  | true =>
    rw [chain?_of_startsCompound hs] at h
    obtain ⟨c, r, hc, h⟩ := Lexeme.gives_bind.1 h
    obtain ⟨_, rfl⟩ := Lexeme.gives_pure.1 h
    obtain ⟨head, r₁, links, hhead, hlinks, _⟩ := gives_chain.1 hc
    have hlt := length_lt_compound hs hhead
    exact Nat.lt_of_le_of_lt hlinks.length_le (Nat.lt_of_lt_of_le hlt h₀)

/-- The link that begins with a character, if there is one. Without a mark it has to stand apart
from what is before it. -/
def linkFrom? (d : Dialect) (apart : Bool) (c : Char) (t : List Char) :
    Taken (Option Compound) (t.length + 1) :=
  if c = ',' || c = ')' then .ok (none, .whole (c :: t))
  else
    match Combinator.ofMark? c with
    | some op =>
      if !d.allowsCombinator op then .error (.here (.unknownOperator c) (c :: t))
      else do
        have h := Text.length_skipBlank_le t
        let (next, ⟨r, hr⟩) ← compound? d (skipBlank t)
        match next with
        | none => .error (.here (.ruleExpected c) r)
        | some next =>
          return (some { next with combinator := some op },
            ⟨r, Nat.le_succ_of_le (Nat.le_trans hr h)⟩)
    | none => do
      let (next, r) ← compound? d (c :: t)
      match next with
      | none => return (none, r)
      | some next =>
        if apart then return (some { next with combinator := some .descendant }, r)
        else .error ⟨.unexpectedChar .separator c, c :: t, r.1⟩

/-- The link at the start of a text, if there is one. -/
def link? (d : Dialect) (cs : List Char) : Taken (Option Compound) cs.length :=
  have h₀ := Text.length_skipBlank_le cs
  match h : skipBlank cs with
  | [] => .ok (none, ⟨[], Nat.zero_le _⟩)
  | c :: t => do
    let (next, ⟨r, hr⟩) ← linkFrom? d ((c :: t).length < cs.length) c t
    return (next, ⟨r, Nat.le_trans hr (by rwa [h] at h₀)⟩)

private theorem outcome_link_nil (h : skipBlank cs = []) :
    outcome (link? d cs) = .ok (none, []) := by
  rw [link?]
  split
  · rfl
  · next hcons => cases h.symm.trans hcons

private theorem outcome_link_cons {c : Char} {t : List Char} (h : skipBlank cs = c :: t) :
    outcome (link? d cs) = outcome (linkFrom? d ((c :: t).length < cs.length) c t) := by
  rw [link?]
  split
  · next hnil => cases hnil.symm.trans h
  · next hcons =>
    obtain ⟨rfl, rfl⟩ := List.cons.inj (hcons.symm.trans h)
    cases linkFrom? d _ _ _ with
    | error p => rfl
    | ok a => rfl

private theorem outcome_links_nil (h : skipBlank cs = []) :
    outcome (links d cs) = .ok ([], []) := by
  rw [links]
  split
  · rfl
  · next hcons => cases h.symm.trans hcons

/-- Links are read one by one. -/
theorem unrolls_links (d : Dialect) : Unrolls (fun _ ↦ link? d) fun _ ↦ links d := by
  intro k cs
  show outcome (links d cs) = outcome (link? d cs) >>= behindRound fun r ↦ outcome (links d r)
  have h₀ := Text.length_skipBlank_le cs
  cases h : skipBlank cs with
  | nil =>
    rw [outcome_links_nil h, outcome_link_nil h]
    rfl
  | cons c t =>
    have hle : t.length + 1 ≤ cs.length := by rwa [h] at h₀
    rw [outcome_link_cons h, links_eq h hle]
    unfold linkFrom?
    by_cases hstop : (c = ',' || c = ')') = true
    · rw [if_pos hstop, if_pos hstop]
      rfl
    rw [if_neg hstop, if_neg hstop]
    cases hop : Combinator.ofMark? c with
    | some op =>
      dsimp only
      split
      · rfl
      · cases hs : startsCompound (skipBlank t) with
        | true =>
          rw [compound?_of_startsCompound hs, if_pos rfl]
          cases compound d (skipBlank t) with
          | error p => rfl
          | ok a =>
            have hlen := Nat.le_trans a.2.2 (Text.length_skipBlank_le t)
            exact Lexeme.outcome_cons _ (Nat.le_trans hlen (Nat.le_of_succ_le hle))
        | false =>
          rw [compound?_of_not_startsCompound hs]
          rfl
    | none =>
      cases hs : startsCompound (c :: t) with
      | true =>
        rw [compound?_of_startsCompound hs]
        dsimp only
        rw [if_pos rfl]
        by_cases hlt : (c :: t).length < cs.length
        · rw [dif_pos hlt, decide_eq_true hlt]
          cases compound d (c :: t) with
          | error p => rfl
          | ok a => exact Lexeme.outcome_cons _ (Nat.le_trans a.2.2 hle)
        · rw [dif_neg hlt, decide_eq_false hlt]
          cases compound d (c :: t) with
          | error p => rfl
          | ok a => rfl
      | false =>
        rw [compound?_of_not_startsCompound hs]
        rfl

private theorem shortens_linkFrom {apart : Bool} {c : Char} {t : List Char} :
    Shortens (c :: t) (linkFrom? d apart c t) := by
  unfold linkFrom?
  split
  · exact Shortens.of_none
  split
  · split
    · exact Shortens.of_error
    · apply Shortens.bind
      intro next r hnext
      cases next with
      | none => exact Shortens.of_error
      | some next =>
        have hr := ((shortens_compound d (skipBlank t) hnext).1.trans (skipBlank_suffix t))
        exact Shortens.of_ok (hr.trans (List.suffix_cons c t)) (Nat.lt_succ_of_le hr.length_le)
  · apply Shortens.bind
    intro next r hnext
    cases next with
    | none => exact Shortens.of_none
    | some next =>
      obtain ⟨hr, hlt⟩ := shortens_compound d (c :: t) hnext
      dsimp only
      split
      · exact Shortens.of_ok hr hlt
      · exact Shortens.of_error

/-- A link takes some of the text. -/
theorem advances_link (d : Dialect) : Advances fun _ ↦ link? d := by
  intro k cs next r hnext
  have hround := Lexeme.outcome_eq_ok.2 hnext
  cases h : skipBlank cs with
  | nil =>
    rw [outcome_link_nil h] at hround
    cases hround
  | cons c t =>
    rw [outcome_link_cons h] at hround
    obtain ⟨hr, hlt⟩ := shortens_linkFrom (Lexeme.outcome_eq_ok.1 hround)
    rw [← h] at hr hlt
    exact ⟨hr.trans (skipBlank_suffix cs), Nat.lt_of_lt_of_le hlt (Text.length_skipBlank_le cs)⟩

/-- The chain at the start of a text, if there is one. Behind other chains there has to be one if
there is a comma. -/
def alternative? (d : Dialect) (k : Nat) (cs : List Char) :
    Taken (Option (Chain Compound)) cs.length :=
  match k, cs with
  | 0, cs => chain? d cs
  | _ + 1, ',' :: t => do
    let (next, r) ← chain? d t
    match next with
    | none => .error (.here (.ruleExpected ',') r.1)
    | some next => return (some next, .behind r)
  | _ + 1, cs => .ok (none, .whole cs)

/-- The chains at the start of a text, behind others. -/
def alternatives (d : Dialect) (k : Nat) (cs : List Char) :
    Taken (List (Chain Compound)) cs.length :=
  match k with
  | 0 => chains d cs
  | _ + 1 => moreChains d cs

/-- A further alternative takes some of the text. -/
theorem advances_alternative (d : Dialect) : Advances (alternative? d) := by
  intro k cs
  unfold alternative?
  split
  · exact shortens_chain d cs
  · next t =>
    apply Shortens.bind
    intro next r hnext
    cases next with
    | none => exact Shortens.of_error
    | some next =>
      have hr := (shortens_chain d t hnext).1
      exact Shortens.of_ok (hr.trans (List.suffix_cons ',' t)) (Nat.lt_succ_of_le hr.length_le)
  · exact Shortens.of_none

/-- Further alternatives are read one by one. -/
theorem unrolls_alternatives (d : Dialect) : Unrolls (alternative? d) (alternatives d) := by
  intro k cs
  cases k with
  | zero =>
    show outcome (chains d cs) =
      outcome (chain? d cs) >>= behindRound fun r ↦ outcome (moreChains d r)
    rw [chains]
    cases hs : startsCompound (skipBlank cs) with
    | true =>
      rw [chain?_of_startsCompound hs, if_pos rfl]
      exact Lexeme.outcome_bind fun c r ↦
        Lexeme.outcome_cons c (Nat.le_trans r.2 (Text.length_skipBlank_le cs))
    | false =>
      rw [chain?_of_not_startsCompound hs]
      rfl
  | succ k =>
    show outcome (moreChains d cs) =
      outcome (alternative? d (k + 1) cs) >>= behindRound fun r ↦ outcome (moreChains d r)
    by_cases hc : cs.head? = some ','
    · obtain ⟨t, rfl⟩ := List.head?_eq_some_iff.1 hc
      rw [moreChains, alternative?]
      cases hs : startsCompound (skipBlank t) with
      | true =>
        rw [chain?_of_startsCompound hs, if_pos rfl]
        cases chain d (skipBlank t) with
        | error p => rfl
        | ok a =>
          have hlen := Nat.le_trans a.2.2 (Text.length_skipBlank_le t)
          exact Lexeme.outcome_cons a.1 (Nat.le_succ_of_le hlen)
      | false =>
        rw [chain?_of_not_startsCompound hs]
        rfl
    · have hne : ∀ t, cs = ',' :: t → False := by
        rintro t rfl
        exact hc rfl
      rw [moreChains, alternative?]
      · rfl
      · exact hne
      · exact hne

end Grammar

end DocSelect
