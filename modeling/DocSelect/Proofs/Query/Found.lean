import DocSelect.Proofs.Query.Invariant
import DocSelect.Proofs.Query.Trial

/-!
# What a search finds

The invariant of a full search says of every node that the steps tried there are exactly the
links that arrive there. A trial then tells which links the children of the node inherit and
which links are carried to its next sibling, so the invariant goes on to both, and the search
lists the nodes that match a chain, in document order.
-/

namespace DocSelect

variable {α : Type} [Element α]

namespace Scene

section Waits

variable (g : Scene α) (chains : List (Chain (Step α)))

/-- Some steps are exactly the links that arrive at a node. -/
def Waits (ws : List (Waiting α)) (path : Path) : Prop :=
  ∀ w, w ∈ ws ↔ g.Arrives chains w path

/-- A link is tried at every child of a node. -/
def Inherits (w : Waiting α) (path : Path) : Prop :=
  w.step.combinator = some .descendant ∧
      (g.Follows chains w path ∨ g.Arrives chains w path) ∨
    w.step.combinator = some .child ∧ g.Follows chains w path

/-- A link is tried at the next sibling of a node. -/
def Carries (w : Waiting α) (path : Path) : Prop :=
  w.step.combinator = some .laterSibling ∧
      (g.Follows chains w path ∨ g.Arrives chains w path) ∨
    w.step.combinator = some .nextSibling ∧ g.Follows chains w path

/-- A node of a scene matches one of some chains. -/
def Selects (path : Path) (p : Place α) : Prop :=
  g.node? path = some p ∧ ∃ c ∈ chains, g.Matches c path

/-- Some nodes are exactly the matching ones within a part of a scene, in document order. -/
structure Finds (part : Path → Prop) (found : List (Place α)) : Prop where
  mem : ∀ p, p ∈ found ↔ ∃ path, part path ∧ g.Selects chains path p
  ordered : found.Pairwise fun a b ↦ a.path < b.path

end Waits

variable {g : Scene α} {chains : List (Chain (Step α))}

/-- A child is reached by what it inherits from its parent and by what its previous sibling
carries to it. -/
theorem arrives_snoc {w : Waiting α} {path : Path} {i : Nat} :
    g.Arrives chains w (path ++ [i]) ↔
      g.Inherits chains w path ∨ ∃ j, i = j + 1 ∧ g.Carries chains w (path ++ [j]) := by
  rcases hop : w.step.combinator with _ | op
  · simp [Arrives, Inherits, Carries, hop]
  have arrives (b : Path) :
      g.Arrives chains w b ↔ ∃ a, g.Follows chains w a ∧ op.Leads a b := by
    simp [Arrives, hop]
  simp only [Inherits, Carries, arrives, hop, Option.some.injEq]
  cases op with
  | descendant =>
    simp only [Combinator.leads_descendant_snoc, reduceCtorEq, true_and, false_and, and_false,
      or_false, exists_false]
    constructor
    · rintro ⟨a, hf, rfl | hl⟩
      · exact .inl hf
      · exact .inr ⟨a, hf, hl⟩
    · rintro (hf | ⟨a, hf, hl⟩)
      · exact ⟨path, hf, .inl rfl⟩
      · exact ⟨a, hf, .inr hl⟩
  | child =>
    simp only [Combinator.leads_child_snoc, reduceCtorEq, true_and, false_and, and_false,
      or_false, false_or, exists_false, exists_eq_right]
  | nextSibling =>
    simp only [Combinator.leads_nextSibling_snoc, reduceCtorEq, true_and, false_and, false_or]
    constructor
    · rintro ⟨_, hf, j, hj, rfl⟩
      exact ⟨j, hj, hf⟩
    · rintro ⟨j, hj, hf⟩
      exact ⟨path ++ [j], hf, j, hj, rfl⟩
  | laterSibling =>
    simp only [Combinator.leads_laterSibling_snoc, reduceCtorEq, true_and, false_and, or_false,
      false_or]
    constructor
    · rintro ⟨_, hf, j, hj, rfl⟩
      obtain ⟨k, rfl⟩ : ∃ k, i = k + 1 := ⟨i - 1, by omega⟩
      rcases Nat.lt_or_eq_of_le (Nat.le_of_lt_succ hj) with hlt | rfl
      · exact ⟨k, rfl, .inr ⟨path ++ [j], hf, j, hlt, rfl⟩⟩
      · exact ⟨j, rfl, .inl hf⟩
    · rintro ⟨k, rfl, hf | ⟨_, hf, j, hj, rfl⟩⟩
      · exact ⟨path ++ [k], hf, k, Nat.lt_succ_self k, rfl⟩
      · exact ⟨path ++ [j], hf, j, Nat.lt_succ_of_lt hj, rfl⟩

end Scene

namespace Search

open Scene

/-- A search for all nodes asks what the tests of a scene ask, for chains of compounds that
are joined by combinators. -/
structure Covers (s : Search α) (g : Scene α) : Prop where
  all : s.firstOnly = false
  scope : s.scope = g.scope
  maxDepth : s.maxDepth = g.maxDepth
  joined : ∀ c ∈ s.chains, c.Joined Step.combinator

variable {s : Search α} {g : Scene α} {path : Path} {place : Place α} {ws : List (Waiting α)}
  {t : Trial α}

/-- A search that asks what the tests of a scene ask accepts a node where the step passes. -/
theorem passes_iff (hscope : s.scope = g.scope) (hmax : s.maxDepth = g.maxDepth)
    (hnode : g.node? path = some place) (step : Step α) :
    step.Accepts (s.setting (g.depth + path.length)) place (g.top.tree.positionAt? path) ↔
      g.Passes step path := by
  have hset : s.setting (g.depth + path.length) = g.setting path.length := by
    simp [Search.setting, Scene.setting, hscope, hmax]
  simp [Passes, hnode, hset]

private theorem tried_iff (hs : s.Covers g) (hnode : g.node? path = some place)
    (hw : g.Waits s.chains ws path) (w : Waiting α) :
    w ∈ ws ++ Waiting.heads s.chains ∧
        w.step.Accepts (s.setting (g.depth + path.length)) place (g.top.tree.positionAt? path) ↔
      g.Holds s.chains w path := by
  rw [passes_iff hs.scope hs.maxDepth hnode, List.mem_append, hw w, holds_iff, or_comm]

private theorem belongs_of_tried (hw : g.Waits s.chains ws path) :
    ∀ w ∈ ws ++ Waiting.heads s.chains, w.Belongs s.chains := by
  intro w h
  rcases List.mem_append.1 h with h | h
  · exact ((hw w).1 h).belongs
  · exact Waiting.belongs_of_mem_heads h

/-- After a trial the links wait that follow the node, and those that arrived and go on. -/
theorem mem_waitingFor_trial (hs : s.Covers g) (hnode : g.node? path = some place)
    (hw : g.Waits s.chains ws path)
    (h : s.trial (g.depth + path.length) place (g.top.tree.positionAt? path) ws = .ok t)
    (op : Combinator) (x : Waiting α) :
    x ∈ t.pending.waitingFor op ↔ x.step.combinator = some op ∧
      (g.Follows s.chains x path ∨
        g.Arrives s.chains x path ∧ (op = .descendant ∨ op = .laterSibling)) := by
  have nothing : x ∉ (Pending.none : Pending α).waitingFor op := by
    cases op <;> exact List.not_mem_nil
  rw [mem_waitingFor_tryAll_of_joined hs.all hs.joined (belongs_of_tried hw) Pending.within_none h]
  simp only [nothing, false_or]
  refine and_congr_right fun hop ↦ or_congr ?_ ?_
  · constructor
    · rintro ⟨u, hu, ha, hn⟩
      exact ⟨u, (tried_iff hs hnode hw u).1 ⟨hu, ha⟩, hn⟩
    · rintro ⟨u, hu, hn⟩
      obtain ⟨hu, ha⟩ := (tried_iff hs hnode hw u).2 hu
      exact ⟨u, hu, ha, hn⟩
  · rw [Waiting.stays_iff hop]
    refine and_congr_left fun hst ↦ ?_
    constructor
    · intro hx
      rcases List.mem_append.1 hx with hx | hx
      · exact (hw x).1 hx
      · have hno := Waiting.not_stays_of_mem_heads hs.joined hx
        rw [(Waiting.stays_iff hop).2 hst] at hno
        cases hno
    · intro hx
      exact List.mem_append_left _ ((hw x).2 hx)

/-- After a trial those links wait below the node that its children inherit. -/
theorem mem_below_trial (hs : s.Covers g) (hnode : g.node? path = some place)
    (hw : g.Waits s.chains ws path)
    (h : s.trial (g.depth + path.length) place (g.top.tree.positionAt? path) ws = .ok t)
    (x : Waiting α) : x ∈ t.pending.below ↔ g.Inherits s.chains x path := by
  have hd := mem_waitingFor_trial hs hnode hw h .descendant x
  have hc := mem_waitingFor_trial hs hnode hw h .child x
  simp only [Pending.waitingFor, reduceCtorEq, or_self, and_true, and_false, or_false] at hd hc
  rw [Pending.below, List.mem_append, hd, hc, Inherits]

/-- After a trial those links wait beside the node that it carries to its next sibling. -/
theorem mem_beside_trial (hs : s.Covers g) (hnode : g.node? path = some place)
    (hw : g.Waits s.chains ws path)
    (h : s.trial (g.depth + path.length) place (g.top.tree.positionAt? path) ws = .ok t)
    (x : Waiting α) : x ∈ t.pending.beside ↔ g.Carries s.chains x path := by
  have hl := mem_waitingFor_trial hs hnode hw h .laterSibling x
  have hn := mem_waitingFor_trial hs hnode hw h .nextSibling x
  simp only [Pending.waitingFor, or_true, reduceCtorEq, or_self, and_true, and_false,
    or_false] at hl hn
  rw [Pending.beside, List.mem_append, hl, hn, Carries]

/-- A trial finds the node exactly if it matches a chain. -/
theorem found_trial (hs : s.Covers g) (hnode : g.node? path = some place)
    (hw : g.Waits s.chains ws path)
    (h : s.trial (g.depth + path.length) place (g.top.tree.positionAt? path) ws = .ok t) :
    t.found = true ↔ ∃ c ∈ s.chains, g.Matches c path := by
  rw [found_tryAll hs.all h, ← exists_last_iff]
  simp only [Bool.false_eq_true, false_or]
  constructor
  · rintro ⟨w, hm, ha, hr⟩
    exact ⟨w, (tried_iff hs hnode hw w).1 ⟨hm, ha⟩, hr⟩
  · rintro ⟨w, hm, hr⟩
    obtain ⟨hm, ha⟩ := (tried_iff hs hnode hw w).2 hm
    exact ⟨w, hm, ha, hr⟩

/-- At every node exactly the links wait that arrive there, so a trial finds the nodes that
match. -/
def Covers.invariant (hs : s.Covers g) : s.Invariant g where
  waits path ws := g.Waits s.chains ws path
  below path ws := ∀ w, w ∈ ws ↔ g.Inherits s.chains w path
  beside path ws := ∀ w, w ∈ ws ↔ g.Carries s.chains w path
  tells path _ found := found = true ↔ ∃ c ∈ s.chains, g.Matches c path
  waits_first hb w := by
    rw [hb, arrives_snoc]
    simp
  waits_next hb hn w := by
    rw [List.mem_append, hb, hn, arrives_snoc]
    simp
  trial hnode hw h :=
    ⟨found_trial hs hnode hw h, mem_below_trial hs hnode hw h, mem_beside_trial hs hnode hw h⟩

/-- What is told of a part of a scene is what is found in it, if nodes are found in order. -/
theorem Covers.finds (hs : s.Covers g) {part : Path → Prop} {found : List (Place α)}
    (h : hs.invariant.Told part found) (hordered : found.Pairwise fun a b ↦ a.path < b.path) :
    g.Finds s.chains part found where
  mem p := by
    constructor
    · intro hp
      obtain ⟨path, hpart, hnode, htells⟩ := h.found p hp
      exact ⟨path, hpart, hnode, htells.1 rfl⟩
    · rintro ⟨path, hpart, hnode, hm⟩
      rcases h.missed hs.all path p hpart hnode with hp | htells
      · exact hp
      · cases htells.2 hm
  ordered := hordered

/-- A search from the top of a scene finds all its matching nodes. -/
theorem finds_run (hs : s.Covers g) {hits : Hits α} (htop : g.withTop = true)
    (h : s.visit g.depth g.top.path none [] g.top.tree = .ok hits) :
    g.Finds s.chains (fun _ ↦ True) hits.found := by
  have hwaits : g.Waits s.chains [] [] := by
    intro w
    simp [not_arrives_nil]
  exact hs.finds (hs.invariant.told_run htop hwaits h)
    ((Tree.ordered_placesAt _ _).sublist (sublist_visit _ h))

end Search

end DocSelect
