import DocSelect.Proofs.Outcome
import DocSelect.Proofs.Query.Scene

/-!
# Steps that wait

A search keeps steps of its chains that wait for nodes. Each of them is one link of one chain,
and its two numbers tell it from all others. `Scene.Holds` says that a link holds at a node with
all links before it holding at nodes that lead there; `Scene.Follows` and `Scene.Arrives` say
which links it makes wait, and where. The last link of a chain holds exactly at the nodes that
match the chain.
-/

namespace DocSelect

variable {α : Type}

namespace Waiting

/-- A waiting step is the link of a chain that its numbers say, with the links behind it. -/
def Belongs (chains : List (Chain (Step α))) (w : Waiting α) : Prop :=
  ∃ c, chains[w.chain]? = some c ∧ c.toList.drop w.link = w.step :: w.rest

/-- The heads are the first links of the chains. -/
theorem mem_heads {chains : List (Chain (Step α))} {w : Waiting α} :
    w ∈ heads chains ↔
      ∃ i c, chains[i]? = some c ∧ w = ⟨i, 0, c.head, c.links⟩ := by
  simp only [heads, List.mem_map, Prod.exists, List.mk_mem_zipIdx_iff_getElem?]
  constructor
  · rintro ⟨c, i, hc, rfl⟩
    exact ⟨i, c, hc, rfl⟩
  · rintro ⟨i, c, hc, rfl⟩
    exact ⟨c, i, hc, rfl⟩

/-- Every chain has its head among the heads. -/
theorem exists_head {chains : List (Chain (Step α))} {c : Chain (Step α)} (hc : c ∈ chains) :
    ∃ w ∈ heads chains, w.step = c.head ∧ w.rest = c.links := by
  obtain ⟨i, hi⟩ := List.getElem?_of_mem hc
  exact ⟨⟨i, 0, c.head, c.links⟩, mem_heads.2 ⟨i, c, hi, rfl⟩, rfl, rfl⟩

/-- Only a step with links behind it has a next one. -/
theorem next?_eq_some {w v : Waiting α} :
    w.next? = some v ↔
      w.rest = v.step :: v.rest ∧ v.chain = w.chain ∧ v.link = w.link + 1 := by
  obtain ⟨wc, wl, ws, wr⟩ := w
  obtain ⟨vc, vl, vs, vr⟩ := v
  cases wr with
  | nil => simp [next?]
  | cons s r =>
    simp only [next?, Option.some.injEq, mk.injEq, List.cons.injEq]
    constructor
    · rintro ⟨rfl, rfl, rfl, rfl⟩
      exact ⟨⟨rfl, rfl⟩, rfl, rfl⟩
    · rintro ⟨⟨rfl, rfl⟩, rfl, rfl⟩
      exact ⟨rfl, rfl, rfl, rfl⟩

/-- The heads belong to their chains. -/
theorem belongs_of_mem_heads {chains : List (Chain (Step α))} {w : Waiting α}
    (h : w ∈ heads chains) : w.Belongs chains := by
  obtain ⟨i, c, hc, rfl⟩ := mem_heads.1 h
  exact ⟨c, hc, rfl⟩

/-- The next step belongs to the same chain. -/
theorem Belongs.next {chains : List (Chain (Step α))} {w v : Waiting α} (h : w.Belongs chains)
    (hv : w.next? = some v) : v.Belongs chains := by
  obtain ⟨c, hc, hd⟩ := h
  obtain ⟨hr, hchain, hlink⟩ := next?_eq_some.1 hv
  refine ⟨c, hchain ▸ hc, ?_⟩
  rw [hlink, ← List.drop_drop, hd, hr]
  rfl

/-- Whether something holds of a waiting step and of all steps behind it. -/
def All (P : Step α → Prop) (w : Waiting α) : Prop := ∀ step ∈ w.step :: w.rest, P step

/-- What holds of a waiting step and of all behind it holds of the next one and of all behind
that. -/
theorem All.next {P : Step α → Prop} {w v : Waiting α} (h : w.All P) (hv : w.next? = some v) :
    v.All P := by
  intro step hstep
  rw [← (next?_eq_some.1 hv).1] at hstep
  exact h step (List.mem_cons_of_mem _ hstep)

/-- What holds of all steps of some chains and of all that waits at a node holds of all that is
tried there. -/
theorem all_tried {P : Step α → Prop} {chains : List (Chain (Step α))} {ws : List (Waiting α)}
    (hchains : ∀ c ∈ chains, ∀ step ∈ c.toList, P step) (hws : ∀ w ∈ ws, w.All P) :
    ∀ w ∈ ws ++ heads chains, w.All P := by
  refine List.forall_mem_append.2 ⟨hws, fun w hw ↦ ?_⟩
  obtain ⟨i, c, hc, rfl⟩ := mem_heads.1 hw
  exact hchains c (List.mem_of_getElem? hc)

/-- Two steps of the same chains with the same numbers are one. -/
theorem Belongs.eq_of_same {chains : List (Chain (Step α))} {w v : Waiting α}
    (hw : w.Belongs chains) (hv : v.Belongs chains) (h : w.same v = true) : w = v := by
  obtain ⟨wc, wl, ws, wr⟩ := w
  obtain ⟨vc, vl, vs, vr⟩ := v
  simp only [same, Bool.and_eq_true, beq_iff_eq] at h
  obtain ⟨rfl, rfl⟩ := h
  obtain ⟨c, hc, hd⟩ := hw
  obtain ⟨c', hc', hd'⟩ := hv
  obtain rfl : c = c' := Option.some.inj (hc.symm.trans hc')
  obtain ⟨rfl, rfl⟩ := List.cons.inj (hd.symm.trans hd')
  rfl

end Waiting

namespace Scene

variable [Element α] (g : Scene α) (chains : List (Chain (Step α)))

/-- A link of a chain holds at a node: all links before it hold at nodes that lead there. -/
inductive Holds : Waiting α → Path → Prop where
  | head {w : Waiting α} {path : Path} (hw : w ∈ Waiting.heads chains)
      (hp : g.Passes w.step path) : Holds w path
  | link {u w : Waiting α} {a path : Path} {op : Combinator} (hu : Holds u a)
      (hw : u.next? = some w) (hop : w.step.combinator = some op) (hl : op.Leads a path)
      (hp : g.Passes w.step path) : Holds w path

/-- A link comes next behind one that holds at a node. -/
def Follows (w : Waiting α) (a : Path) : Prop := ∃ u, g.Holds chains u a ∧ u.next? = some w

/-- A link waits at a node: it follows a node from which its combinator leads there. -/
def Arrives (w : Waiting α) (path : Path) : Prop :=
  ∃ op a, w.step.combinator = some op ∧ g.Follows chains w a ∧ op.Leads a path

variable {g chains}

/-- A link holds exactly where it is tried and passes. -/
theorem holds_iff {w : Waiting α} {path : Path} :
    g.Holds chains w path ↔
      (w ∈ Waiting.heads chains ∨ g.Arrives chains w path) ∧ g.Passes w.step path := by
  constructor
  · intro h
    cases h with
    | head hw hp => exact ⟨.inl hw, hp⟩
    | link hu hw hop hl hp => exact ⟨.inr ⟨_, _, hop, ⟨_, hu, hw⟩, hl⟩, hp⟩
  · rintro ⟨hw | ⟨op, a, hop, ⟨u, hu, hw⟩, hl⟩, hp⟩
    · exact .head hw hp
    · exact .link hu hw hop hl hp

/-- Links that hold belong to their chains. -/
theorem Holds.belongs {w : Waiting α} {path : Path} (h : g.Holds chains w path) :
    w.Belongs chains := by
  induction h with
  | head hw _ => exact Waiting.belongs_of_mem_heads hw
  | link _ hw _ _ _ ih => exact ih.next hw

/-- Links that wait belong to their chains. -/
theorem Arrives.belongs {w : Waiting α} {path : Path} (h : g.Arrives chains w path) :
    w.Belongs chains := by
  obtain ⟨_, _, _, ⟨u, hu, hw⟩, _⟩ := h
  exact hu.belongs.next hw

/-- Nothing waits at the top of a scene. -/
theorem not_arrives_nil (w : Waiting α) : ¬ g.Arrives chains w [] := by
  rintro ⟨op, a, _, _, hl⟩
  exact op.not_leads_nil a hl

/-- A link that holds is the end of a chain's beginning, so its links behind may follow. -/
theorem Holds.exists_matches {w : Waiting α} {a : Path} (h : g.Holds chains w a) :
    ∃ c ∈ chains, ∀ b, g.Joins w.rest a b → g.Matches c b := by
  induction h with
  | @head w a hw hp =>
    obtain ⟨i, c, hc, rfl⟩ := Waiting.mem_heads.1 hw
    exact ⟨c, List.mem_of_getElem? hc, fun b hb ↦ ⟨a, hp, hb⟩⟩
  | @link u w a m op hu hw hop hl hp ih =>
    obtain ⟨c, hc, hm⟩ := ih
    refine ⟨c, hc, fun b hb ↦ hm b ?_⟩
    rw [(Waiting.next?_eq_some.1 hw).1]
    exact ⟨op, m, hop, hl, hp, hb⟩

/-- Links that follow one that holds lead to a last one that holds. -/
theorem Holds.exists_last {w : Waiting α} {a b : Path} (h : g.Holds chains w a)
    (hj : g.Joins w.rest a b) : ∃ v, g.Holds chains v b ∧ v.rest = [] := by
  generalize hr : w.rest = steps at hj
  induction steps generalizing w a with
  | nil =>
    obtain rfl : a = b := hj
    exact ⟨w, h, hr⟩
  | cons step steps ih =>
    obtain ⟨op, m, hop, hl, hp, hj⟩ := hj
    have hw : w.next? = some ⟨w.chain, w.link + 1, step, steps⟩ :=
      Waiting.next?_eq_some.2 ⟨hr, rfl, rfl⟩
    exact ih (.link h hw hop hl hp) rfl hj

/-- The last link of some chain holds exactly at the nodes that match a chain. -/
theorem exists_last_iff {path : Path} :
    (∃ w, g.Holds chains w path ∧ w.rest = []) ↔ ∃ c ∈ chains, g.Matches c path := by
  constructor
  · rintro ⟨w, hw, hr⟩
    obtain ⟨c, hc, hm⟩ := hw.exists_matches
    exact ⟨c, hc, hm path (hr ▸ rfl)⟩
  · rintro ⟨c, hc, first, hp, hj⟩
    obtain ⟨w, hw, hs, hr⟩ := Waiting.exists_head hc
    exact (Holds.head hw (hs ▸ hp)).exists_last (hr ▸ hj)

end Scene

end DocSelect
