import DocSelect.Proofs.Query.Waiting

/-!
# Trying steps at a node

One trial goes over the steps that wait at a node and over the heads of all chains. What it
makes wait is said bucket by bucket: a step waits where its own combinator says, because it
comes next behind one that passed, or because it was tried and goes on waiting. Where the steps
that wait at a node are those that arrive there, this is what follows and arrives at the node.
-/

namespace DocSelect

variable {α : Type}

/-- Where a step waits: where its combinator says, or below like a descendant if it has none. -/
def Step.reach (step : Step α) : Combinator := step.combinator.getD .descendant

/-- A step with a combinator waits where that says. -/
theorem Step.reach_eq_iff {step : Step α} {op : Combinator}
    (h : ∃ own, step.combinator = some own) :
    step.reach = op ↔ step.combinator = some op := by
  obtain ⟨own, hown⟩ := h
  simp [reach, hown]

/-- Adding a step to a list keeps the steps that are there. -/
theorem mem_addWaiting {chains : List (Chain (Step α))} {w x : Waiting α} {ws : List (Waiting α)}
    (hws : ∀ v ∈ ws, v.Belongs chains) (hw : w.Belongs chains) :
    x ∈ addWaiting w ws ↔ x ∈ ws ∨ x = w := by
  unfold addWaiting
  split
  · next h =>
    obtain ⟨v, hv, hs⟩ := List.any_eq_true.1 h
    obtain rfl : w = v := hw.eq_of_same (hws v hv) hs
    constructor
    · exact .inl
    · rintro (hx | rfl)
      · exact hx
      · exact hv
  · simp

namespace Waiting

/-- A step that comes next in a chain carries a combinator. -/
theorem Belongs.combinator_next {chains : List (Chain (Step α))} {w v : Waiting α}
    (hj : ∀ c ∈ chains, c.Joined Step.combinator) (hw : w.Belongs chains)
    (hv : w.next? = some v) : ∃ op, v.step.combinator = some op := by
  obtain ⟨c, hc, hd⟩ := hw
  rw [(next?_eq_some.1 hv).1] at hd
  have hmem : v.step ∈ (c.toList.drop w.link).tail := by simp [hd]
  rw [List.tail_drop] at hmem
  exact Option.isSome_iff_exists.1 ((hj c (List.mem_of_getElem? hc)).2 v.step
    (List.mem_of_mem_drop (show v.step ∈ c.links.drop w.link from hmem)))

/-- The head of a chain is tried once. -/
theorem not_stays_of_mem_heads {chains : List (Chain (Step α))} {w : Waiting α}
    (hj : ∀ c ∈ chains, c.Joined Step.combinator) (hw : w ∈ heads chains) : w.stays = false := by
  obtain ⟨i, c, hc, rfl⟩ := mem_heads.1 hw
  simp [stays, (hj c (List.mem_of_getElem? hc)).1]

/-- A step that goes on waiting carries a combinator. -/
theorem exists_combinator_of_stays {w : Waiting α} (h : w.stays = true) :
    ∃ op, w.step.combinator = some op := by
  cases hc : w.step.combinator with
  | none => simp [stays, hc] at h
  | some op => exact ⟨op, rfl⟩

/-- A step goes on waiting for descendants and for later siblings. -/
theorem stays_iff {w : Waiting α} {op : Combinator} (h : w.step.combinator = some op) :
    w.stays = true ↔ op = .descendant ∨ op = .laterSibling := by
  simp [stays, h]

end Waiting

namespace Pending

/-- The steps that wait where a combinator says. -/
def waitingFor (p : Pending α) : Combinator → List (Waiting α)
  | .descendant => p.descendants
  | .child => p.children
  | .nextSibling => p.nextSibling
  | .laterSibling => p.laterSiblings

/-- All steps that wait are links of some chains. -/
def Within (p : Pending α) (chains : List (Chain (Step α))) : Prop :=
  ∀ op, ∀ w ∈ p.waitingFor op, w.Belongs chains

variable {p : Pending α} {chains : List (Chain (Step α))}

/-- Where no step waits all steps belong to any chains. -/
theorem within_none : (Pending.none : Pending α).Within chains := by
  intro op w hw
  cases op <;> cases hw

/-- A step waits where it reaches, and nowhere else. -/
theorem waitingFor_add (p : Pending α) (w : Waiting α) (op : Combinator) :
    (p.add w).waitingFor op =
      if op = w.step.reach then addWaiting w (p.waitingFor op) else p.waitingFor op := by
  unfold add Step.reach
  cases w.step.combinator with
  | none => cases op <;> rfl
  | some own => cases own <;> cases op <;> rfl

/-- Adding a step adds it where it reaches. -/
theorem mem_waitingFor_add {w x : Waiting α} (hp : p.Within chains) (hw : w.Belongs chains)
    (op : Combinator) :
    x ∈ (p.add w).waitingFor op ↔ x ∈ p.waitingFor op ∨ x = w ∧ x.step.reach = op := by
  rw [waitingFor_add]
  split
  · next h =>
    rw [mem_addWaiting (hp op) hw]
    refine or_congr_right ⟨?_, And.left⟩
    rintro rfl
    exact ⟨rfl, h.symm⟩
  · next h =>
    refine (or_iff_left ?_).symm
    rintro ⟨rfl, hx⟩
    exact h hx.symm

/-- Adding a link of the chains keeps all steps links of the chains. -/
theorem Within.add {w : Waiting α} (hp : p.Within chains) (hw : w.Belongs chains) :
    (p.add w).Within chains := by
  intro op x hx
  rcases (mem_waitingFor_add hp hw op).1 hx with hx | ⟨rfl, _⟩
  · exact hp op x hx
  · exact hw

end Pending

namespace Pending

/-- Whether something holds of all steps that wait. -/
def All (P : Waiting α → Prop) (p : Pending α) : Prop := ∀ op, ∀ w ∈ p.waitingFor op, P w

variable {P : Waiting α → Prop} {p : Pending α}

/-- Nothing waits that could be an exception. -/
theorem all_none : (Pending.none : Pending α).All P := by
  intro op w hw
  cases op <;> cases hw

/-- A list with a step added to it holds nothing else new. -/
theorem all_addWaiting {w : Waiting α} {ws : List (Waiting α)} (hws : ∀ v ∈ ws, P v) (hw : P w) :
    ∀ v ∈ addWaiting w ws, P v := by
  intro v hv
  unfold addWaiting at hv
  split at hv
  · exact hws v hv
  · rcases List.mem_append.1 hv with hv | hv
    · exact hws v hv
    · rwa [List.mem_singleton.1 hv]

/-- Adding a step changes no more than the list that it belongs to. -/
theorem waitingFor_add_or (p : Pending α) (w : Waiting α) (op : Combinator) :
    (p.add w).waitingFor op = p.waitingFor op ∨
      (p.add w).waitingFor op = addWaiting w (p.waitingFor op) := by
  rw [waitingFor_add]
  split
  · exact .inr rfl
  · exact .inl rfl

/-- Adding a step of a kind keeps all steps of that kind. -/
theorem All.add {w : Waiting α} (hp : p.All P) (hw : P w) : (p.add w).All P := by
  intro op
  rcases waitingFor_add_or p w op with h | h
  · rw [h]
    exact hp op
  · rw [h]
    exact all_addWaiting (hp op) hw

/-- Whatever waits below is of the kind. -/
theorem All.below (hp : p.All P) : ∀ w ∈ p.below, P w := by
  intro w hw
  rcases List.mem_append.1 hw with hw | hw
  · exact hp .descendant w hw
  · exact hp .child w hw

/-- Whatever waits beside is of the kind. -/
theorem All.beside (hp : p.All P) : ∀ w ∈ p.beside, P w := by
  intro w hw
  rcases List.mem_append.1 hw with hw | hw
  · exact hp .laterSibling w hw
  · exact hp .nextSibling w hw

/-- Trying steps of a kind that the next steps keep leaves steps of that kind waiting. -/
theorem All.tryAll {s : Search α} {setting : Setting} {place : Place α}
    {position : Option Position} {ws : List (Waiting α)} {t t' : Trial α}
    (hnext : ∀ w v, P w → w.next? = some v → P v) (hws : ∀ w ∈ ws, P w) (ht : t.pending.All P)
    (h : s.tryAll setting place position ws t = .ok t') : t'.pending.All P := by
  induction ws generalizing t with
  | nil =>
    obtain rfl : t = t' := Except.ok.inj h
    exact ht
  | cons w ws ih =>
    rw [Search.tryAll] at h
    split at h
    · obtain rfl := Except.ok.inj h
      exact ht
    · obtain ⟨v, _, h⟩ := Outcome.bind_eq_ok.1 h
      obtain ⟨hw, hws⟩ := List.forall_mem_cons.1 hws
      apply ih hws _ h
      have hp : (if v.holds then w.next?.elim t.pending t.pending.add else t.pending).All P := by
        split
        · cases hn : w.next? with
          | none => exact ht
          | some u => exact ht.add (hnext w u hw hn)
        · exact ht
      unfold Search.record
      dsimp only
      split
      · exact hp.add hw
      · exact hp

/-- What holds of all steps of the chains and of all that waits at a node holds of all that a trial
there leaves waiting. -/
theorem All.trial {Q : Step α → Prop} {s : Search α} {depth : Nat} {place : Place α}
    {position : Option Position} {ws : List (Waiting α)} {t : Trial α}
    (hchains : ∀ c ∈ s.chains, ∀ step ∈ c.toList, Q step) (hws : ∀ w ∈ ws, w.All Q)
    (h : s.trial depth place position ws = .ok t) : t.pending.All (Waiting.All Q) :=
  All.tryAll (fun _ _ ↦ Waiting.All.next) (Waiting.all_tried hchains hws) all_none h

end Pending

namespace Search

variable {s : Search α} {chains : List (Chain (Step α))}

private theorem pending_holds {w : Waiting α} {v : Verdict} {t : Trial α}
    (hw : w.Belongs chains) (ht : t.pending.Within chains) :
    let p := if v.holds then w.next?.elim t.pending t.pending.add else t.pending
    p.Within chains ∧ ∀ op x, x ∈ p.waitingFor op ↔
      x ∈ t.pending.waitingFor op ∨ x.step.reach = op ∧ v.holds = true ∧ w.next? = some x := by
  intro p
  cases hv : v.holds with
  | false => simpa [p, hv] using ht
  | true =>
    cases hn : w.next? with
    | none => simpa [p, hv, hn] using ht
    | some u =>
      have hu := hw.next hn
      simp only [p, hv, hn, if_true, Option.elim_some]
      refine ⟨ht.add hu, fun op x ↦ ?_⟩
      rw [Pending.mem_waitingFor_add ht hu op]
      simp only [true_and, Option.some.injEq]
      refine or_congr_right ⟨?_, ?_⟩
      · rintro ⟨rfl, hx⟩
        exact ⟨hx, rfl⟩
      · rintro ⟨hx, rfl⟩
        exact ⟨rfl, hx⟩

/-- One tried step makes its next one wait if it holds, and itself if it goes on waiting. -/
theorem mem_waitingFor_record {w : Waiting α} {v : Verdict} {t : Trial α}
    (hw : w.Belongs chains) (ht : t.pending.Within chains) :
    (record w v t).pending.Within chains ∧ ∀ op x, x ∈ (record w v t).pending.waitingFor op ↔
      x ∈ t.pending.waitingFor op ∨ x.step.reach = op ∧
        (v.holds = true ∧ w.next? = some x ∨ x = w ∧ x.stays = true) := by
  obtain ⟨hp, hmem⟩ := pending_holds (v := v) hw ht
  unfold record
  cases hs : w.stays with
  | false =>
    refine ⟨by simpa using hp, fun op x ↦ ?_⟩
    simp only [Bool.false_eq_true, if_false]
    rw [hmem op x]
    refine or_congr_right (and_congr_right fun _ ↦ (or_iff_left ?_).symm)
    rintro ⟨rfl, hx⟩
    rw [hs] at hx
    cases hx
  | true =>
    simp only [if_true]
    refine ⟨hp.add hw, fun op x ↦ ?_⟩
    rw [Pending.mem_waitingFor_add hp hw op, hmem op x]
    constructor
    · rintro ((hx | ⟨hop, hx⟩) | ⟨rfl, hop⟩)
      · exact .inl hx
      · exact .inr ⟨hop, .inl hx⟩
      · exact .inr ⟨hop, .inr ⟨rfl, hs⟩⟩
    · rintro (hx | ⟨hop, hx | ⟨rfl, _⟩⟩)
      · exact .inl (.inl hx)
      · exact .inl (.inr ⟨hop, hx⟩)
      · exact .inr ⟨rfl, hop⟩

section Full

variable {setting : Setting} {place : Place α} {position : Option Position}
  {ws : List (Waiting α)} {t t' : Trial α}

/-- Trying all of some steps gives a result exactly if every one of them is answered. -/
theorem exists_tryAll_iff (hs : s.firstOnly = false) :
    (∃ t', s.tryAll setting place position ws t = .ok t') ↔
      ∀ w ∈ ws, ∃ v, w.step.test setting place position = .ok v := by
  induction ws generalizing t with
  | nil => simp [tryAll]
  | cons w ws ih =>
    simp only [tryAll, hs, Bool.false_and, Bool.false_eq_true, if_false, Outcome.bind_eq_ok,
      List.forall_mem_cons]
    constructor
    · rintro ⟨t', v, hv, h⟩
      exact ⟨⟨v, hv⟩, ih.1 ⟨t', h⟩⟩
    · rintro ⟨⟨v, hv⟩, h⟩
      obtain ⟨t', h⟩ := ih.2 h
      exact ⟨t', v, hv, h⟩

/-- Trying steps makes those wait that come next behind one that is accepted, and those that go
on waiting, each where it reaches. -/
theorem mem_waitingFor_tryAll (hs : s.firstOnly = false) (hws : ∀ w ∈ ws, w.Belongs chains)
    (ht : t.pending.Within chains) (h : s.tryAll setting place position ws t = .ok t')
    (op : Combinator) (x : Waiting α) :
    x ∈ t'.pending.waitingFor op ↔
      x ∈ t.pending.waitingFor op ∨ x.step.reach = op ∧
        ((∃ w ∈ ws, w.step.Accepts setting place position ∧ w.next? = some x) ∨
          x ∈ ws ∧ x.stays = true) := by
  induction ws generalizing t with
  | nil =>
    obtain rfl : t = t' := Except.ok.inj h
    simp
  | cons w ws ih =>
    simp only [tryAll, hs, Bool.false_and, Bool.false_eq_true, if_false] at h
    obtain ⟨v, hv, h⟩ := Outcome.bind_eq_ok.1 h
    obtain ⟨hwithin, hmem⟩ := mem_waitingFor_record (v := v) (hws w List.mem_cons_self) ht
    rw [ih (fun u hu ↦ hws u (List.mem_cons_of_mem _ hu)) hwithin h, hmem op x]
    have haccepts : w.step.Accepts setting place position ↔ v.holds = true := by
      simp [Step.Accepts, hv]
    simp only [List.mem_cons, exists_eq_or_imp, haccepts]
    constructor
    · rintro ((hx | ⟨hop, hx | ⟨rfl, hx⟩⟩) | ⟨hop, hx | ⟨hx, hst⟩⟩)
      · exact .inl hx
      · exact .inr ⟨hop, .inl (.inl hx)⟩
      · exact .inr ⟨hop, .inr ⟨.inl rfl, hx⟩⟩
      · exact .inr ⟨hop, .inl (.inr hx)⟩
      · exact .inr ⟨hop, .inr ⟨.inr hx, hst⟩⟩
    · rintro (hx | ⟨hop, (hx | hx) | ⟨rfl | hx, hst⟩⟩)
      · exact .inl (.inl hx)
      · exact .inl (.inr ⟨hop, .inl hx⟩)
      · exact .inr ⟨hop, .inl hx⟩
      · exact .inl (.inr ⟨hop, .inr ⟨rfl, hst⟩⟩)
      · exact .inr ⟨hop, .inr ⟨hx, hst⟩⟩

/-- Steps of chains that are joined by combinators wait where their combinators say. -/
theorem mem_waitingFor_tryAll_of_joined (hs : s.firstOnly = false)
    (hj : ∀ c ∈ chains, c.Joined Step.combinator) (hws : ∀ w ∈ ws, w.Belongs chains)
    (ht : t.pending.Within chains) (h : s.tryAll setting place position ws t = .ok t')
    (op : Combinator) (x : Waiting α) :
    x ∈ t'.pending.waitingFor op ↔
      x ∈ t.pending.waitingFor op ∨ x.step.combinator = some op ∧
        ((∃ w ∈ ws, w.step.Accepts setting place position ∧ w.next? = some x) ∨
          x ∈ ws ∧ x.stays = true) := by
  rw [mem_waitingFor_tryAll hs hws ht h]
  refine or_congr_right (and_congr_left fun hx ↦ Step.reach_eq_iff ?_)
  rcases hx with ⟨w, hw, _, hn⟩ | ⟨_, hst⟩
  · exact (hws w hw).combinator_next hj hn
  · exact Waiting.exists_combinator_of_stays hst

/-- Trying steps finds a node exactly if the last step of a chain is accepted. -/
theorem found_tryAll (hs : s.firstOnly = false)
    (h : s.tryAll setting place position ws t = .ok t') :
    t'.found = true ↔
      t.found = true ∨ ∃ w ∈ ws, w.step.Accepts setting place position ∧ w.rest = [] := by
  induction ws generalizing t with
  | nil =>
    obtain rfl : t = t' := Except.ok.inj h
    simp
  | cons w ws ih =>
    simp only [tryAll, hs, Bool.false_and, Bool.false_eq_true, if_false] at h
    obtain ⟨v, hv, h⟩ := Outcome.bind_eq_ok.1 h
    rw [ih h]
    simp [record, Step.Accepts, hv, or_assoc]

end Full

end Search

end DocSelect
