import DocSelect.Query.Evaluation
import DocSelect.Proofs.Query.Resolve

/-!
# What a search asks of its steps

A search knows a step by its combinator and by its answers, and it asks for answers only at nodes
that it visits and never within brackets. So its steps may be restricted: wherever the search does
not ask, a restricted step has a fixed answer. The search of restricted steps is the search of the
steps themselves, with everything that waits in it restricted. Hence searches find the same where
their steps restrict to the same.
-/

namespace DocSelect

open Outcome

variable {α : Type}

/-- A property of trees that goes over to the children. -/
def Tree.Hereditary (P : Tree α → Prop) : Prop := ∀ a cs, P (.parent a cs) → ∀ c ∈ cs, P c

/-- What can be asked about a node, the answer depending on the setting and the position. -/
abbrev Inquiry (α : Type) :=
  Setting → Place α → Option Position → Except MatchError Verdict

variable {P : Tree α → Prop} [DecidablePred P]

section Restrict

variable (P)

/-- An inquiry about the roots of some trees, outside brackets. It holds nowhere else. -/
def Inquiry.restrict (ask : Inquiry α) : Inquiry α := fun setting place position ↦
  if setting.inner = false ∧ P place.tree then ask setting place position else .ok (.of false)

/-- A step of which only the answers at some trees are left. -/
def Step.restrict (step : Step α) : Step α :=
  { step with test := Inquiry.restrict P step.test }

/-- A waiting step, restricted as all steps behind it are. -/
def Waiting.restrict (w : Waiting α) : Waiting α :=
  { w with step := w.step.restrict P, rest := w.rest.map (Step.restrict P) }

/-- The steps that wait, restricted. -/
def Pending.restrict (p : Pending α) : Pending α :=
  ⟨p.descendants.map (Waiting.restrict P), p.children.map (Waiting.restrict P),
    p.nextSibling.map (Waiting.restrict P), p.laterSiblings.map (Waiting.restrict P)⟩

/-- What trying steps gives if they are restricted. -/
def Trial.restrict (t : Trial α) : Trial α := { t with pending := t.pending.restrict P }

/-- What a search gives if its steps are restricted. -/
def Hits.restrict (h : Hits α) : Hits α :=
  { h with beside := h.beside.map (Waiting.restrict P) }

/-- A search whose steps are restricted. -/
def Search.restrict (s : Search α) : Search α :=
  { s with chains := s.chains.map (Chain.map (Step.restrict P)) }

end Restrict

/-- Inquiries restrict to the same exactly if their answers are the same there. -/
theorem Inquiry.restrict_eq_iff {ask ask' : Inquiry α} :
    ask.restrict P = ask'.restrict P ↔ ∀ setting place position, setting.inner = false →
      P place.tree → ask setting place position = ask' setting place position := by
  constructor
  · intro h setting place position hinner hplace
    have hsame := congrFun (congrFun (congrFun h setting) place) position
    simpa only [restrict, hinner, hplace, and_self, if_true] using hsame
  · intro h
    funext setting place position
    unfold restrict
    split
    · next hwhere => exact h setting place position hwhere.1 hwhere.2
    · rfl

namespace Waiting

@[simp] private theorem stays_restrict (w : Waiting α) : (w.restrict P).stays = w.stays := rfl

/-- The step behind a restricted one is restricted. -/
theorem next?_restrict (w : Waiting α) :
    (w.restrict P).next? = w.next?.map (Waiting.restrict P) := by
  obtain ⟨chain, link, step, rest⟩ := w
  cases rest with
  | nil => rfl
  | cons step' rest => rfl

/-- The heads of restricted chains are restricted. -/
theorem heads_restrict (chains : List (Chain (Step α))) :
    heads (chains.map (Chain.map (Step.restrict P))) =
      (heads chains).map (Waiting.restrict P) := by
  simp only [heads, List.zipIdx_map, List.map_map]
  rfl

end Waiting

/-- Whether a step waits already depends on its numbers alone. -/
theorem addWaiting_restrict (w : Waiting α) (ws : List (Waiting α)) :
    addWaiting (w.restrict P) (ws.map (Waiting.restrict P)) =
      (addWaiting w ws).map (Waiting.restrict P) := by
  have hany : (ws.map (Waiting.restrict P)).any (w.restrict P).same = ws.any w.same := by
    rw [List.any_map]
    rfl
  unfold addWaiting
  rw [hany]
  split
  · rfl
  · rw [List.map_append]
    rfl

namespace Pending

/-- Where a step waits depends on its combinator alone. -/
theorem add_restrict (p : Pending α) (w : Waiting α) :
    (p.restrict P).add (w.restrict P) = (p.add w).restrict P := by
  have hcombinator : (w.restrict P).step.combinator = w.step.combinator := rfl
  unfold add
  rw [hcombinator]
  split <;> simp only [restrict, addWaiting_restrict]

private theorem below_restrict (p : Pending α) :
    (p.restrict P).below = p.below.map (Waiting.restrict P) :=
  List.map_append.symm

private theorem beside_restrict (p : Pending α) :
    (p.restrict P).beside = p.beside.map (Waiting.restrict P) :=
  List.map_append.symm

end Pending

namespace Search

variable {s : Search α} {place : Place α}

@[simp] private theorem firstOnly_restrict : (s.restrict P).firstOnly = s.firstOnly := rfl

@[simp] private theorem maxDepth_restrict : (s.restrict P).maxDepth = s.maxDepth := rfl

@[simp] private theorem setting_restrict (depth : Nat) :
    (s.restrict P).setting depth = s.setting depth := rfl

@[simp] private theorem isOver_restrict (found : List (Place α)) :
    (s.restrict P).isOver found = s.isOver found := rfl

/-- What a step leaves behind is restricted if it is. -/
theorem record_restrict (w : Waiting α) (v : Verdict) (t : Trial α) :
    record (w.restrict P) v (t.restrict P) = (record w v t).restrict P := by
  have hpending : (if v.holds then
        (w.restrict P).next?.elim (t.restrict P).pending (t.restrict P).pending.add
      else (t.restrict P).pending) =
      (if v.holds then w.next?.elim t.pending t.pending.add else t.pending).restrict P := by
    rw [Waiting.next?_restrict]
    split
    · cases w.next? with
      | none => rfl
      | some next => exact Pending.add_restrict t.pending next
    · rfl
  have hrest : (w.restrict P).rest.isEmpty = w.rest.isEmpty := List.isEmpty_map
  unfold record
  dsimp only
  rw [hpending, hrest, Waiting.stays_restrict, Pending.add_restrict, ← apply_ite]
  rfl

/-- Restricted steps are tried as the steps themselves are. -/
theorem tryAll_restrict (setting : Setting) (hinner : setting.inner = false)
    (hplace : P place.tree) (position : Option Position) (ws : List (Waiting α)) (t : Trial α) :
    (s.restrict P).tryAll setting place position (ws.map (Waiting.restrict P)) (t.restrict P) =
      Trial.restrict P <$> s.tryAll setting place position ws t := by
  induction ws generalizing t with
  | nil => rfl
  | cons w ws ih =>
    have htest : (w.restrict P).step.test setting place position =
        w.step.test setting place position :=
      if_pos ⟨hinner, hplace⟩
    rw [List.map_cons, tryAll, tryAll, htest]
    have hfound : (t.restrict P).found = t.found := rfl
    rw [firstOnly_restrict, hfound]
    split
    · rfl
    · rw [map_bind]
      refine bind_congr fun v ↦ ?_
      rw [record_restrict, ih]

/-- A trial of restricted steps is the trial of the steps themselves. -/
theorem trial_restrict (hplace : P place.tree) (depth : Nat) (position : Option Position)
    (ws : List (Waiting α)) :
    (s.restrict P).trial depth place position (ws.map (Waiting.restrict P)) =
      Trial.restrict P <$> s.trial depth place position ws := by
  have hheads : Waiting.heads (s.restrict P).chains =
      (Waiting.heads s.chains).map (Waiting.restrict P) :=
    Waiting.heads_restrict s.chains
  have htried := tryAll_restrict (s := s) (s.setting depth) rfl hplace position
    (ws ++ Waiting.heads s.chains) ⟨.none, false, 1⟩
  unfold trial
  rw [hheads, ← List.map_append, setting_restrict]
  exact htried

variable [Element α]

mutual
/-- A subtree is searched for restricted steps as for the steps themselves. -/
theorem visit_restrict (hP : Tree.Hereditary P) : (t : Tree α) → P t →
    (depth : Nat) → (path : Path) → (position : Option Position) → (ws : List (Waiting α)) →
    (s.restrict P).visit depth path position (ws.map (Waiting.restrict P)) t =
      Hits.restrict P <$> s.visit depth path position ws t
  | .leaf a, ht, depth, path, position, ws => by
    rw [visit, visit, trial_restrict ht, bind_map_left, map_bind]
    refine bind_congr fun r ↦ ?_
    have hbeside : (r.restrict P).pending.beside = r.pending.beside.map (Waiting.restrict P) :=
      r.pending.beside_restrict
    rw [hbeside]
    rfl
  | .parent a cs, ht, depth, path, position, ws => by
    rw [visit, visit, trial_restrict ht, bind_map_left, map_bind]
    refine bind_congr fun r ↦ ?_
    have hfound : (r.restrict P).found = r.found := rfl
    have hbeside : (r.restrict P).pending.beside = r.pending.beside.map (Waiting.restrict P) :=
      r.pending.beside_restrict
    have hbelow : (r.restrict P).pending.below = r.pending.below.map (Waiting.restrict P) :=
      r.pending.below_restrict
    have hall := visitAll_restrict hP cs (hP a cs ht) (depth + 1) path 0
      (Position.all (cs.map Tree.type)) r.pending.below []
    rw [List.map_nil] at hall
    dsimp only
    rw [hfound, hbeside, hbelow, isOver_restrict, maxDepth_restrict, hall]
    generalize (if r.found then [Place.mk path (.parent a cs)] else []) = here
    split
    · rfl
    · split
      · rfl
      · split
        · rfl
        · rw [bind_map_left, map_bind]
          rfl

/-- Siblings are searched for restricted steps as for the steps themselves. -/
theorem visitAll_restrict (hP : Tree.Hereditary P) :
    (ts : List (Tree α)) → (∀ t ∈ ts, P t) → (depth : Nat) → (path : Path) → (index : Nat) →
    (positions : List Position) → (inherited carried : List (Waiting α)) →
    (s.restrict P).visitAll depth path index positions (inherited.map (Waiting.restrict P))
        (carried.map (Waiting.restrict P)) ts =
      Hits.restrict P <$> s.visitAll depth path index positions inherited carried ts
  | [], _, _, _, _, _, _, _ => rfl
  | t :: ts, hts, depth, path, index, positions, inherited, carried => by
    rw [visitAll, visitAll, ← List.map_append,
      visit_restrict hP t (hts t List.mem_cons_self), bind_map_left, map_bind]
    refine bind_congr fun here ↦ ?_
    have hfound : (here.restrict P).found = here.found := rfl
    have hbeside : (here.restrict P).beside = here.beside.map (Waiting.restrict P) := rfl
    have hall := visitAll_restrict hP ts (fun t ht ↦ hts t (List.mem_cons_of_mem _ ht)) depth path
      (index + 1) positions.tail inherited here.beside
    rw [hfound, hbeside, isOver_restrict, hall]
    split
    · rfl
    · rw [bind_map_left, map_bind]
      rfl
end

/-- Below a node restricted steps are searched for as the steps themselves are. -/
theorem runBelow_restrict (hP : Tree.Hereditary P) (hplace : P place.tree)
    (depth : Nat) :
    (s.restrict P).runBelow depth place = Hits.restrict P <$> s.runBelow depth place := by
  unfold runBelow
  split
  · rfl
  · next a cs htree =>
    rw [htree] at hplace
    have hall := visitAll_restrict (s := s) hP cs (hP a cs hplace) (depth + 1) place.path 0
      (Position.all (cs.map Tree.type)) [] []
    rw [maxDepth_restrict]
    split
    · rfl
    · split
      · rfl
      · exact hall

end Search

variable [Element α] {cs ds : List (Chain (Step α))}

/-- Searches find the same in trees where the steps of their chains restrict to the same. -/
theorem Search.found_run_congr (hP : Tree.Hereditary P) {root : Tree α}
    (hroot : P root)
    (h : cs.map (Chain.map (Step.restrict P)) = ds.map (Chain.map (Step.restrict P)))
    (firstOnly : Bool) (scope : List Path) (maxDepth : Nat) :
    Hits.found <$> (Search.mk cs firstOnly scope maxDepth).run root =
      Hits.found <$> (Search.mk ds firstOnly scope maxDepth).run root := by
  have hrun (cs : List (Chain (Step α))) :
      Hits.found <$> ((Search.mk cs firstOnly scope maxDepth).restrict P).run root =
        Hits.found <$> (Search.mk cs firstOnly scope maxDepth).run root := by
    have hvisit := visit_restrict (s := ⟨cs, firstOnly, scope, maxDepth⟩) hP root hroot 0 [] none []
    unfold run
    rw [← List.map_nil (f := Waiting.restrict P), hvisit, Functor.map_map]
    rfl
  have hsearch : (Search.mk cs firstOnly scope maxDepth).restrict P =
      (Search.mk ds firstOnly scope maxDepth).restrict P := by
    simp only [restrict, h]
  rw [← hrun cs, ← hrun ds, hsearch]

/-- Whether something is found below a node, and after how many visits, depends on what the steps
restrict to. -/
theorem hasBelow_congr (hP : Tree.Hereditary P) {place : Place α}
    (hplace : P place.tree)
    (h : cs.map (Chain.map (Step.restrict P)) = ds.map (Chain.map (Step.restrict P)))
    (setting : Setting) : hasBelow setting place cs = hasBelow setting place ds := by
  have hrun (cs : List (Chain (Step α))) : hasBelow setting place cs =
      hasBelow setting place (cs.map (Chain.map (Step.restrict P))) := by
    have hbelow := Search.runBelow_restrict (s := ⟨cs, true, [place.path], setting.maxDepth⟩) hP
      hplace setting.depth
    unfold hasBelow
    change _ = ((Search.mk cs true [place.path] setting.maxDepth).restrict P).runBelow _ _ >>= _
    rw [hbelow, bind_map_left]
    rfl
  rw [hrun cs, hrun ds, h]

end DocSelect
