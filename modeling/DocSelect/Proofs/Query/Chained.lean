import DocSelect.Proofs.Query.MatchesAt

/-!
# Chains asked of one node

A chain cannot be asked of one node alone, and a query refuses it when its turn comes. The
alternatives before the first chain are asked in order, and the first one that holds is the answer.
So a query with a chain is refused exactly if none of the alternatives before its first chain holds;
what stands behind that chain does not matter.
-/

namespace DocSelect

variable {α : Type}

namespace Matcher

variable [Element α]

/-- The steps of a chain begin with the step of its head. -/
theorem head_chain (c : Chain (Matcher α)) : (chain c).head = c.head.step := by
  obtain ⟨head, links⟩ := c
  rw [chain]

/-- The steps of a chain are as many as its matchers. -/
theorem isEmpty_links_chain (c : Chain (Matcher α)) :
    (chain c).links.isEmpty = c.links.isEmpty := by
  obtain ⟨head, links⟩ := c
  rw [chain, steps_eq_map, List.isEmpty_map]

end Matcher

namespace Query

/-- The alternatives before the first chain, which are asked before it. -/
def leading {β : Type} (alternatives : List (Chain β)) : List (Chain β) :=
  alternatives.takeWhile fun c ↦ c.links.isEmpty

/-- Alternatives with a chain among them are refused if none before the first chain holds. -/
theorem anyAt_of_chained (setting : Setting) (node : Place α) (position : Option Position)
    {chains : List (Chain (Step α))} (hchained : ∃ c ∈ chains, c.links ≠ [])
    (hanswered : ∀ c ∈ leading chains, ∃ v, c.head.test setting node position = .ok v) :
    ((∀ c ∈ leading chains, ¬ c.head.Accepts setting node position) →
        anyAt setting node position chains = .error .chained) ∧
      ((∃ c ∈ leading chains, c.head.Accepts setting node position) →
        anyAt setting node position chains = .ok true) := by
  induction chains with
  | nil => simp at hchained
  | cons c cs ih =>
    unfold anyAt
    cases hc : c.links.isEmpty with
    | false => simp [leading, hc]
    | true =>
      have hleading : leading (c :: cs) = c :: leading cs := List.takeWhile_cons_of_pos hc
      rw [hleading] at hanswered ⊢
      obtain ⟨⟨v, hv⟩, hanswered⟩ := List.forall_mem_cons.1 hanswered
      have hrest : ∃ c ∈ cs, c.links ≠ [] := by simpa [List.isEmpty_iff.1 hc] using hchained
      have haccepts : c.head.Accepts setting node position ↔ v.holds = true := by
        simp [Step.Accepts, hv]
      simp only [if_true, hv, Outcome.ok_bind, List.forall_mem_cons, List.exists_mem_cons_iff,
        haccepts]
      cases v.holds with
      | false => simpa using ih hrest hanswered
      | true => simp; rfl

variable [Element α] {q : Query α} {node : Place α} {parent : Option (Place α)}

/-- The setting in which a query asks about one node. -/
def settingAt (q : Query α) (node : Place α) (parent : Option (Place α)) : Setting :=
  ⟨node.scope, 0, q.maxDepth, parent.isNone, false⟩

/-- The position at which a query asks about one node, which is unknown without a parent. -/
def positionAt (node : Place α) (parent : Option (Place α)) : Option Position :=
  parent.bind fun p ↦ (positionIn node p).toOption

/-- A node is asked for at its position below its parent. -/
theorem matchesAt_eq_anyAt (hparent : ∀ p ∈ parent, node ∈ p.children) :
    q.matchesAt node parent = anyAt (q.settingAt node parent) node (positionAt node parent)
      (Matcher.chains q.alternatives) := by
  cases parent with
  | none => rfl
  | some p =>
    obtain ⟨_, position, _, _, _, hin⟩ := positionIn_of_mem_children (hparent p rfl)
    have hat : positionAt node (some p) = some position := by
      simp [positionAt, hin, Except.toOption]
    rw [hat, matchesAt]
    dsimp only
    rw [hin]
    rfl

/-- A query with a chain among its alternatives, asked for a node without a parent or with one that
has the node as a child, and with an answer from every alternative before the first chain, is
refused if none of these holds, and says that the node matches if one does. -/
theorem matchesAt_of_chained (hq : ∃ c ∈ q.alternatives, c.links ≠ [])
    (hparent : ∀ p ∈ parent, node ∈ p.children)
    (hanswered : ∀ c ∈ leading q.alternatives, ∃ v,
      c.head.step.test (q.settingAt node parent) node (positionAt node parent) = .ok v) :
    ((∀ c ∈ leading q.alternatives,
        ¬ c.head.step.Accepts (q.settingAt node parent) node (positionAt node parent)) →
      q.matchesAt node parent = .error .chained) ∧
    ((∃ c ∈ leading q.alternatives,
        c.head.step.Accepts (q.settingAt node parent) node (positionAt node parent)) →
      q.matchesAt node parent = .ok true) := by
  have hleading : leading (Matcher.chains q.alternatives) =
      (leading q.alternatives).map Matcher.chain := by
    rw [Matcher.chains_eq_map, leading, List.takeWhile_map]
    simp only [Function.comp_def, Matcher.isEmpty_links_chain]
    rfl
  have hchained : ∃ c ∈ Matcher.chains q.alternatives, c.links ≠ [] := by
    obtain ⟨c, hc, hlinks⟩ := hq
    rw [Matcher.chains_eq_map]
    refine ⟨Matcher.chain c, List.mem_map_of_mem hc, ?_⟩
    rwa [ne_eq, ← List.isEmpty_iff, Matcher.isEmpty_links_chain, List.isEmpty_iff]
  rw [matchesAt_eq_anyAt hparent]
  simpa [hleading, Matcher.head_chain] using
    anyAt_of_chained (q.settingAt node parent) node (positionAt node parent) hchained
      (by simpa [hleading, Matcher.head_chain])

/-- The second of two items in a list is refused by `text, list > item, item`: what stands behind
the chain is not asked. -/
theorem matchesAt_of_chained_item :
    let item : Matcher Content := ⟨some "item", none, [], [], [], none⟩
    let list : Matcher Content := ⟨some "list", none, [], [], [], none⟩
    let text : Matcher Content := ⟨some "text", none, [], [], [], none⟩
    let q : Query Content := ⟨.empty, [⟨text, []⟩,
      ⟨list, [{ item with combinator := some .child }]⟩, ⟨item, []⟩], 512⟩
    let root := Place.root (Node.ofChildren "list" [Node.ofType "item", Node.ofType "item"])
    let node : Place Content := ⟨[1], Node.ofType "item"⟩
    let position := positionAt node (some root)
    (∃ c ∈ q.alternatives, c.links ≠ []) ∧ (∀ p ∈ some root, node ∈ p.children) ∧
      (∀ c ∈ leading q.alternatives, ∃ v,
        c.head.step.test (q.settingAt node (some root)) node position = .ok v) ∧
      (∀ c ∈ leading q.alternatives,
        ¬ c.head.step.Accepts (q.settingAt node (some root)) node position) ∧
      q.matchesAt node (some root) = .error .chained := by
  intro item list text q root node position
  have hq : ∃ c ∈ q.alternatives, c.links ≠ [] := by simp [q]
  have hparent : ∀ p ∈ some root, node ∈ p.children := by
    simp [root, node, Place.root, Place.children, Node.ofChildren, Tree.children?]
  have htext : text.step.test (q.settingAt node (some root)) node position = .ok (.of false) := rfl
  have hleading : leading q.alternatives = [⟨text, []⟩] := rfl
  have hanswered : ∀ c ∈ leading q.alternatives, ∃ v,
      c.head.step.test (q.settingAt node (some root)) node position = .ok v := by
    simp [hleading, htext]
  have hnone : ∀ c ∈ leading q.alternatives,
      ¬ c.head.step.Accepts (q.settingAt node (some root)) node position := by
    simp [hleading, Step.Accepts, htext, Verdict.of]
  exact ⟨hq, hparent, hanswered, hnone, (matchesAt_of_chained hq hparent hanswered).1 hnone⟩

/-- A chain behind an alternative that holds is not noticed: `a, b > c` holds of a leaf of type `a`,
though `b > c, a` is refused there. -/
theorem matchesAt_chain_behind :
    let a : Matcher Content := ⟨some "a", none, [], [], [], none⟩
    let chain : Chain (Matcher Content) := ⟨⟨some "b", none, [], [], [], none⟩,
      [⟨some "c", none, [], [], [], some .child⟩]⟩
    let q : Query Content := ⟨.empty, [⟨a, []⟩, chain], 512⟩
    let q' : Query Content := ⟨.empty, [chain, ⟨a, []⟩], 512⟩
    let node := Place.root (Node.ofType "a")
    (∃ c ∈ q.alternatives, c.links ≠ []) ∧
      (∀ c ∈ q.alternatives, c.links = [] → ∃ v,
        c.head.step.test (q.settingAt node none) node none = .ok v) ∧
      q.matchesAt node none = .ok true ∧ q'.matchesAt node none = .error .chained := by
  intro a chain q q' node
  have ha : a.step.test (q.settingAt node none) node none = .ok (.of true) := rfl
  exact ⟨by simp [q, chain], by simp [q, chain, ha], rfl, rfl⟩

end Query

end DocSelect
