import DocSelect.Query.Evaluation
import DocSelect.Proofs.Outcome
import DocSelect.Proofs.Query.Trial

/-!
# Answers that stay

A test asks its setting how much room is left for going deeper, what `:scope` stands for, and
whether the siblings of a node are known. Once a test is answered, more room gives the same
answer: a search within it meets no end that it did not meet before. Without siblings the answer
stays as well, or there is none because the siblings are asked for.
-/

namespace DocSelect

section Keeps

variable {β γ : Type}

/-- A run keeps the answer of another one. Where siblings are unknown it may fail for want of
them. -/
def Outcome.Keeps (detached : Bool) (x y : Except MatchError β) : Prop :=
  ∀ b, x = .ok b → y = .ok b ∨ detached = true ∧ ∃ name, y = .error (.noParent name)

namespace Outcome

/-- An outcome keeps itself. -/
theorem Keeps.refl (detached : Bool) (x : Except MatchError β) : Keeps detached x x :=
  fun _ h ↦ .inl h

/-- Runs that go on alike from the same answer keep it. -/
theorem Keeps.bind {detached : Bool} {x y : Except MatchError β} {f g : β → Except MatchError γ}
    (h : Keeps detached x y) (hfg : ∀ b, Keeps detached (f b) (g b)) :
    Keeps detached (x >>= f) (y >>= g) := by
  intro c hc
  obtain ⟨b, rfl, hf⟩ := bind_eq_ok.1 hc
  rcases h b rfl with rfl | ⟨hd, name, rfl⟩
  · exact hfg b c hf
  · exact .inr ⟨hd, name, rfl⟩

/-- Where siblings are known an answer is kept as it is. -/
theorem Keeps.eq_ok {x y : Except MatchError β} {b : β} (h : Keeps false x y) (hx : x = .ok b) :
    y = .ok b := by
  rcases h b hx with hy | ⟨hd, _⟩
  · exact hy
  · cases hd

end Outcome

end Keeps

variable {α : Type}

/-- A setting leaves at least as much room as another one, and stands within the same brackets. -/
structure Setting.Eases (s s' : Setting) : Prop where
  room : s.maxDepth + s'.depth ≤ s'.maxDepth + s.depth
  inner : s'.inner = s.inner

/-- A step keeps its answers where there is more room and `:scope` stands for the same nodes. -/
def Step.Steady (step : Step α) : Prop :=
  ∀ ⦃s s' : Setting⦄, s.Eases s' → s.scope = s'.scope → ∀ place position,
    Outcome.Keeps s'.detached (step.test s place position) (step.test s' place position)

/-- All steps of a chain keep their answers. -/
def Chain.Steady (c : Chain (Step α)) : Prop := ∀ step ∈ c.toList, step.Steady

/-- A waiting step and all steps behind it keep their answers. -/
def Waiting.Steady (w : Waiting α) : Prop := ∀ step ∈ w.step :: w.rest, step.Steady

namespace Search

open Outcome

/-- The search that is the same but for how deep it may go. -/
def limited (s : Search α) (maxDepth : Nat) : Search α := { s with maxDepth := maxDepth }

variable {s : Search α} {maxDepth : Nat}

/-- Trying steps that keep their answers gives the same where there is more room. -/
theorem tryAll_limited {depth depth' : Nat} {place : Place α} {position : Option Position}
    {ws : List (Waiting α)} {t t' : Trial α} (hroom : s.maxDepth + depth' ≤ maxDepth + depth)
    (hws : ∀ w ∈ ws, w.Steady) (h : s.tryAll (s.setting depth) place position ws t = .ok t') :
    (s.limited maxDepth).tryAll ((s.limited maxDepth).setting depth') place position ws t
      = .ok t' := by
  induction ws generalizing t with
  | nil => exact h
  | cons w ws ih =>
    obtain ⟨hw, hws⟩ := List.forall_mem_cons.1 hws
    rw [tryAll] at h ⊢
    split at h
    · next hover =>
      rw [if_pos (show ((s.limited maxDepth).firstOnly && t.found) = true from hover)]
      exact h
    · next hover =>
      rw [if_neg (show ¬ ((s.limited maxDepth).firstOnly && t.found) = true from hover)]
      obtain ⟨v, hv, h⟩ := bind_eq_ok.1 h
      have heases : (s.setting depth).Eases ((s.limited maxDepth).setting depth') := ⟨hroom, rfl⟩
      have hv' := (hw w.step List.mem_cons_self heases rfl place position).eq_ok hv
      exact bind_eq_ok.2 ⟨v, hv', ih hws h⟩

/-- A trial of steps that keep their answers gives the same where there is more room. -/
theorem trial_limited {depth depth' : Nat} {place : Place α} {position : Option Position}
    {ws : List (Waiting α)} {t : Trial α} (hchains : ∀ c ∈ s.chains, c.Steady)
    (hroom : s.maxDepth + depth' ≤ maxDepth + depth) (hws : ∀ w ∈ ws, w.Steady)
    (h : s.trial depth place position ws = .ok t) :
    (s.limited maxDepth).trial depth' place position ws = .ok t :=
  tryAll_limited hroom (Waiting.all_tried hchains hws) h

variable [Element α]

/-- What a search of a subtree leaves waiting for siblings is what the trial at its root does. -/
theorem exists_trial {t : Tree α} {depth : Nat} {path : Path} {position : Option Position}
    {ws : List (Waiting α)} {hits : Hits α} (h : s.visit depth path position ws t = .ok hits) :
    ∃ r, s.trial depth ⟨path, t⟩ position ws = .ok r ∧ hits.beside = r.pending.beside := by
  cases t with
  | leaf a =>
    rw [visit] at h
    obtain ⟨r, hr, h⟩ := bind_eq_ok.1 h
    rw [← Except.ok.inj h]
    exact ⟨r, hr, rfl⟩
  | parent a cs =>
    rw [visit] at h
    obtain ⟨r, hr, h⟩ := bind_eq_ok.1 h
    refine ⟨r, hr, ?_⟩
    dsimp only at h
    generalize (if r.found then [Place.mk path (.parent a cs)] else []) = here at h
    split at h
    · rw [← Except.ok.inj h]
    · split at h
      · rw [← Except.ok.inj h]
      · split at h
        · cases h
        · obtain ⟨below, _, h⟩ := bind_eq_ok.1 h
          rw [← Except.ok.inj h]

/-- What holds of all steps tried at a node holds of those that wait for its siblings. -/
theorem all_beside_visit {P : Step α → Prop} {t : Tree α} {depth : Nat} {path : Path}
    {position : Option Position} {ws : List (Waiting α)} {hits : Hits α}
    (hchains : ∀ c ∈ s.chains, ∀ step ∈ c.toList, P step) (hws : ∀ w ∈ ws, w.All P)
    (h : s.visit depth path position ws t = .ok hits) : ∀ w ∈ hits.beside, w.All P := by
  obtain ⟨r, hr, hbeside⟩ := exists_trial h
  rw [hbeside]
  exact (Pending.All.trial hchains hws hr).beside

mutual
/-- A search of a subtree gives the same where there is more room. -/
theorem visit_limited (hchains : ∀ c ∈ s.chains, c.Steady) : (t : Tree α) → {depth depth' : Nat} →
    {path : Path} → {position : Option Position} → {ws : List (Waiting α)} → {hits : Hits α} →
    s.maxDepth + depth' ≤ maxDepth + depth → (∀ w ∈ ws, w.Steady) →
    s.visit depth path position ws t = .ok hits →
    (s.limited maxDepth).visit depth' path position ws t = .ok hits
  | .leaf a, _, _, path, position, ws, hits, hroom, hws, h => by
    rw [visit] at h ⊢
    obtain ⟨t, ht, h⟩ := bind_eq_ok.1 h
    exact bind_eq_ok.2 ⟨t, trial_limited hchains hroom hws ht, h⟩
  | .parent a cs, depth, depth', path, position, ws, hits, hroom, hws, h => by
    rw [visit] at h ⊢
    obtain ⟨t, ht, h⟩ := bind_eq_ok.1 h
    rw [trial_limited hchains hroom hws ht, ok_bind]
    dsimp only at h ⊢
    generalize (if t.found then [Place.mk path (.parent a cs)] else []) = here at h ⊢
    by_cases hover : s.isOver here = true
    · rw [if_pos hover] at h
      rw [if_pos (show (s.limited maxDepth).isOver here = true from hover)]
      exact h
    · rw [if_neg hover] at h
      rw [if_neg (show ¬ (s.limited maxDepth).isOver here = true from hover)]
      by_cases hnil : cs.isEmpty = true
      · rw [if_pos hnil] at h ⊢
        exact h
      · rw [if_neg hnil] at h ⊢
        by_cases hdeep : s.maxDepth ≤ depth
        · rw [if_pos hdeep] at h
          cases h
        · have hlimit : ¬ maxDepth ≤ depth' := by omega
          rw [if_neg hdeep] at h
          rw [if_neg (show ¬ (s.limited maxDepth).maxDepth ≤ depth' from hlimit)]
          obtain ⟨below, hb, h⟩ := bind_eq_ok.1 h
          have hroom' : s.maxDepth + (depth' + 1) ≤ maxDepth + (depth + 1) := by omega
          have hbelow := (Pending.All.trial hchains hws ht).below
          have hb' := visitAll_limited hchains cs hroom' hbelow (by simp) hb
          exact bind_eq_ok.2 ⟨below, hb', h⟩

/-- A search of siblings gives the same where there is more room. -/
theorem visitAll_limited (hchains : ∀ c ∈ s.chains, c.Steady) : (ts : List (Tree α)) →
    {depth depth' : Nat} → {path : Path} → {index : Nat} → {positions : List Position} →
    {inherited carried : List (Waiting α)} → {hits : Hits α} →
    s.maxDepth + depth' ≤ maxDepth + depth → (∀ w ∈ inherited, w.Steady) →
    (∀ w ∈ carried, w.Steady) →
    s.visitAll depth path index positions inherited carried ts = .ok hits →
    (s.limited maxDepth).visitAll depth' path index positions inherited carried ts = .ok hits
  | [], _, _, _, _, _, _, _, _, _, _, _, h => h
  | t :: ts, _, _, path, index, positions, inherited, carried, hits, hroom, hin, hca, h => by
    rw [visitAll] at h ⊢
    obtain ⟨here, hh, h⟩ := bind_eq_ok.1 h
    have hws : ∀ w ∈ inherited ++ carried, w.Steady := List.forall_mem_append.2 ⟨hin, hca⟩
    refine bind_eq_ok.2 ⟨here, visit_limited hchains t hroom hws hh, ?_⟩
    by_cases hover : s.isOver here.found = true
    · rw [if_pos hover] at h
      rw [if_pos (show (s.limited maxDepth).isOver here.found = true from hover)]
      exact h
    · rw [if_neg hover] at h
      rw [if_neg (show ¬ (s.limited maxDepth).isOver here.found = true from hover)]
      obtain ⟨behind, hb, h⟩ := bind_eq_ok.1 h
      have hbeside := all_beside_visit hchains hws hh
      exact bind_eq_ok.2 ⟨behind, visitAll_limited hchains ts hroom hin hbeside hb, h⟩
end

/-- A search below a node gives the same where there is more room. -/
theorem runBelow_limited {depth depth' : Nat} {place : Place α} {hits : Hits α}
    (hchains : ∀ c ∈ s.chains, c.Steady) (hroom : s.maxDepth + depth' ≤ maxDepth + depth)
    (h : s.runBelow depth place = .ok hits) :
    (s.limited maxDepth).runBelow depth' place = .ok hits := by
  unfold runBelow at h ⊢
  split at h
  · exact h
  · next a cs _ =>
    by_cases hnil : cs.isEmpty = true
    · rw [if_pos hnil] at h ⊢
      exact h
    · rw [if_neg hnil] at h ⊢
      by_cases hdeep : s.maxDepth ≤ depth
      · rw [if_pos hdeep] at h
        cases h
      · have hlimit : ¬ maxDepth ≤ depth' := by omega
        rw [if_neg hdeep] at h
        rw [if_neg (show ¬ (s.limited maxDepth).maxDepth ≤ depth' from hlimit)]
        have hroom' : s.maxDepth + (depth' + 1) ≤ maxDepth + (depth + 1) := by omega
        exact visitAll_limited hchains cs hroom' (by simp) (by simp) h

end Search

section Tests

variable {s s' : Setting} {place : Place α} {position : Option Position}

open Outcome

/-- Whether a structural pseudo-class holds depends on the position alone. -/
theorem SiblingTest.keeps_verdict (t : SiblingTest) :
    Keeps s'.detached (t.verdict s position) (t.verdict s' position) := by
  intro v h
  cases position with
  | some p => exact .inl h
  | none =>
    unfold SiblingTest.verdict at h ⊢
    dsimp only at h ⊢
    cases hd : s'.detached with
    | true => exact .inr ⟨rfl, t.structural.name, rfl⟩
    | false =>
      cases hd' : s.detached with
      | true =>
        rw [hd'] at h
        cases h
      | false =>
        rw [hd'] at h
        exact .inl h

/-- Alternatives at the same node are answered as their heads are. -/
theorem keeps_anyAlone {detached : Bool} {cs : List (Chain (Step α))}
    (h : ∀ c ∈ cs, Keeps detached (c.head.test s place position) (c.head.test s' place position)) :
    Keeps detached (anyAlone s place position cs) (anyAlone s' place position cs) := by
  induction cs with
  | nil => exact Keeps.refl _ _
  | cons c cs ih =>
    obtain ⟨hc, hcs⟩ := List.forall_mem_cons.1 h
    rw [anyAlone, anyAlone]
    split
    · apply hc.bind
      intro v
      split
      · exact Keeps.refl _ _
      · exact (ih hcs).bind fun w ↦ Keeps.refl _ _
    · exact ih hcs

/-- Alternatives within brackets have the node as their `:scope` in every setting. -/
theorem Setting.Eases.within (h : s.Eases s') (place : Place α) :
    (s.within place).Eases (s'.within place) := ⟨h.room, rfl⟩

/-- Chains that keep their answers do so within brackets. -/
theorem keeps_anyAlone_within {cs : List (Chain (Step α))} (h : s.Eases s')
    (hcs : ∀ c ∈ cs, c.Steady) :
    Keeps s'.detached (anyAlone (s.within place) place position cs)
      (anyAlone (s'.within place) place position cs) :=
  keeps_anyAlone fun c hc ↦ hcs c hc c.head List.mem_cons_self (h.within place) rfl place position

variable [Element α]

/-- A search below a node is answered alike where there is more room. -/
theorem keeps_hasBelow {detached : Bool} {cs : List (Chain (Step α))} (h : s.Eases s')
    (hcs : ∀ c ∈ cs, c.Steady) : Keeps detached (hasBelow s place cs) (hasBelow s' place cs) := by
  intro v hv
  obtain ⟨hits, hr, hv⟩ := bind_eq_ok.1 hv
  exact .inl (bind_eq_ok.2 ⟨hits, Search.runBelow_limited hcs h.room hr, hv⟩)

mutual
/-- The chains of some matchers keep their answers. -/
theorem Matcher.steady_chains : (cs : List (Chain (Matcher α))) →
    ∀ c ∈ Matcher.chains cs, c.Steady
  | [] => by
    rw [Matcher.chains]
    simp
  | c :: cs => by
    rw [Matcher.chains]
    exact List.forall_mem_cons.2 ⟨Matcher.steady_chain c, Matcher.steady_chains cs⟩

/-- The steps of a chain of matchers keep their answers. -/
theorem Matcher.steady_chain : (c : Chain (Matcher α)) → (Matcher.chain c).Steady
  | ⟨head, links⟩ => by
    rw [Matcher.chain]
    refine List.forall_mem_cons.2
      ⟨fun s s' h hscope place position ↦ ?_, Matcher.steady_steps links⟩
    exact Matcher.keeps_step head h fun _ ↦ hscope

/-- The steps of some matchers keep their answers. -/
theorem Matcher.steady_steps : (ms : List (Matcher α)) → ∀ step ∈ Matcher.steps ms, step.Steady
  | [] => by
    rw [Matcher.steps]
    simp
  | m :: ms => by
    rw [Matcher.steps]
    refine List.forall_mem_cons.2 ⟨fun s s' h hscope place position ↦ ?_, Matcher.steady_steps ms⟩
    exact Matcher.keeps_step m h fun _ ↦ hscope

/-- A matcher keeps its answers. What `:scope` stands for matters only if it asks for it itself,
not within brackets. -/
theorem Matcher.keeps_step : (m : Matcher α) → {s s' : Setting} → {place : Place α} →
    {position : Option Position} → s.Eases s' → (Test.scope ∈ m.tests → s.scope = s'.scope) →
    Keeps s'.detached (m.step.test s place position) (m.step.test s' place position)
  | ⟨type, id, classes, attributes, tests, combinator⟩, s, s', place, position, h, hscope => by
    rw [Matcher.step]
    dsimp only
    rw [h.inner]
    split
    · exact Keeps.refl _ _
    · split
      · exact Test.keeps_all tests h hscope
      · exact Keeps.refl _ _

/-- Pseudo-classes in order keep their answers. -/
theorem Test.keeps_all : (ts : List (Test α)) → {s s' : Setting} → {place : Place α} →
    {position : Option Position} → s.Eases s' → (Test.scope ∈ ts → s.scope = s'.scope) →
    Keeps s'.detached (Test.all ts s place position) (Test.all ts s' place position)
  | [], _, _, _, _, _, _ => Keeps.refl _ _
  | t :: ts, s, s', place, position, h, hscope => by
    rw [Test.all, Test.all]
    apply (Test.keeps_verdict t h fun ht ↦ hscope (ht ▸ List.mem_cons_self)).bind
    intro v
    split
    · apply (Test.keeps_all ts h fun ht ↦ hscope (List.mem_cons_of_mem _ ht)).bind
      intro w
      exact Keeps.refl _ _
    · exact Keeps.refl _ _

/-- A pseudo-class keeps its answers. -/
theorem Test.keeps_verdict : (t : Test α) → {s s' : Setting} → {place : Place α} →
    {position : Option Position} → s.Eases s' → (t = Test.scope → s.scope = s'.scope) →
    Keeps s'.detached (t.verdict s place position) (t.verdict s' place position)
  | .structural t, _, _, _, _, _, _ => t.keeps_verdict
  | .empty, _, _, _, _, _, _ => Keeps.refl _ _
  | .root, _, _, _, _, _, _ => Keeps.refl _ _
  | .scope, _, _, _, _, _, hscope => by
    rw [Test.verdict, Test.verdict, hscope rfl]
    exact Keeps.refl _ _
  | .matches alternatives, _, _, _, _, h, _ => by
    rw [Test.verdict, Test.verdict]
    exact keeps_anyAlone_within h (Matcher.steady_chains alternatives)
  | .not alternatives, _, _, _, _, h, _ => by
    rw [Test.verdict, Test.verdict]
    apply (keeps_anyAlone_within h (Matcher.steady_chains alternatives)).bind
    intro v
    exact Keeps.refl _ _
  | .has alternatives, _, _, _, _, h, _ => by
    rw [Test.verdict, Test.verdict]
    exact keeps_hasBelow h (Matcher.steady_chains alternatives)
  | .custom _ _, _, _, _, _, _, _ => Keeps.refl _ _
end

end Tests

end DocSelect
