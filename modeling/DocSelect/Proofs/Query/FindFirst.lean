import DocSelect.Query.Basic
import DocSelect.Proofs.Outcome
import DocSelect.Proofs.Query.Trial

/-!
# The first node of a query

A search for the first node stops trying, going deeper and going on once it has found one. Up to
then it is the search for all nodes, errors included; from then on its answer is fixed, and
whatever the full search still does can only add nodes behind. So the two agree step by step on
the first node that they find.
-/

namespace DocSelect

section Foretells

variable {ε β γ δ ζ : Type}

/-- A run that stops early gives what the full run gives as long as that has found nothing, and
else has found what the full run, if it ends well, has found first. -/
def Outcome.Foretells (first? : β → Option γ) (short full : Except ε β) : Prop :=
  short = full ∧ (∀ b, full = .ok b → first? b = none) ∨
    ∃ b, short = .ok b ∧ (first? b).isSome = true ∧ ∀ b', full = .ok b' → first? b' = first? b

namespace Outcome

/-- The same run without a find foretells itself. -/
theorem foretells_of_none {first? : β → Option γ} {b : β} (h : first? b = none) :
    Foretells first? (.ok b : Except ε β) (.ok b) := by
  left
  refine ⟨rfl, fun b' hb ↦ ?_⟩
  rw [← Except.ok.inj hb]
  exact h

/-- The same error foretells itself. -/
theorem foretells_error {first? : β → Option γ} (e : ε) :
    Foretells first? (.error e) (.error e) := by
  left
  refine ⟨rfl, fun b hb ↦ ?_⟩
  cases hb

/-- A run that foretells a result has one itself, with the same find. -/
theorem Foretells.of_ok {first? : β → Option γ} {x y : Except ε β} (h : Foretells first? x y)
    {b' : β} (hy : y = .ok b') : ∃ b, x = .ok b ∧ first? b = first? b' := by
  rcases h with ⟨hsame, _⟩ | ⟨b, hx, _, hfull⟩
  · exact ⟨b', hsame.trans hy, rfl⟩
  · exact ⟨b, hx, (hfull b' hy).symm⟩

/-- Runs that go on after a find keep it, so runs in order foretell one another if their first
steps do and what follows a step without find does. -/
theorem Foretells.bind {first? : β → Option γ} {second? : δ → Option ζ} {x y : Except ε β}
    {k l : β → Except ε δ} (h : Foretells first? x y)
    (hnone : ∀ b, first? b = none → Foretells second? (k b) (l b))
    (hsome : ∀ b, (first? b).isSome = true → ∃ c, k b = .ok c ∧ (second? c).isSome = true ∧
      ∀ b', first? b' = first? b → ∀ c', l b' = .ok c' → second? c' = second? c) :
    Foretells second? (x >>= k) (y >>= l) := by
  rcases h with ⟨rfl, hnothing⟩ | ⟨b, rfl, hb, hfull⟩
  · cases x with
    | error e => exact foretells_error e
    | ok b => exact hnone b (hnothing b rfl)
  · obtain ⟨c, hc, hfound, hkeep⟩ := hsome b hb
    right
    refine ⟨c, hc, hfound, fun c' hc' ↦ ?_⟩
    obtain ⟨b', hb', hl⟩ := bind_eq_ok.1 hc'
    exact hkeep b' (hfull b' hb') c' hl

end Outcome

end Foretells

variable {α : Type}

/-- The node of a trial, if the trial found it. -/
def Trial.here? (t : Trial α) (place : Place α) : Option (Place α) :=
  if t.found then some place else none

private theorem Trial.here?_eq_none {t : Trial α} {place : Place α} :
    t.here? place = none ↔ t.found = false := by
  simp [here?]

private theorem Trial.isSome_here? (t : Trial α) (place : Place α) :
    (t.here? place).isSome = t.found := by
  cases h : t.found <;> simp [here?, h]

/-- The first node found. -/
def Hits.first? (h : Hits α) : Option (Place α) := h.found.head?

namespace Search

open Outcome

/-- The search that is the same but for where it stops. -/
def stopping (s : Search α) (firstOnly : Bool) : Search α := { s with firstOnly := firstOnly }

variable {s : Search α}

/-- A trial that stops at its first find foretells the full one. -/
theorem foretells_tryAll {setting : Setting} {place : Place α} {position : Option Position}
    {ws : List (Waiting α)} {t : Trial α} (ht : t.found = false) :
    Foretells (Trial.here? · place)
      ((s.stopping true).tryAll setting place position ws t)
      ((s.stopping false).tryAll setting place position ws t) := by
  induction ws generalizing t with
  | nil =>
    apply foretells_of_none
    simp [Trial.here?, ht]
  | cons w ws ih =>
    simp only [tryAll, stopping, ht, Bool.and_false, Bool.false_eq_true, if_false]
    cases hv : w.step.test setting place position with
    | error e => exact foretells_error e
    | ok v =>
      show Foretells _ ((s.stopping true).tryAll setting place position ws (record w v t))
        ((s.stopping false).tryAll setting place position ws (record w v t))
      cases hfound : (record w v t).found with
      | false => exact ih hfound
      | true =>
        -- the short trial ends here, and the full one never takes a find back
        right
        refine ⟨record w v t, ?_, by simp [Trial.here?, hfound], fun t' h ↦ ?_⟩
        · cases ws with
          | nil => rfl
          | cons w' ws => simp [tryAll, stopping, hfound]
        · have ht' : t'.found = true := (found_tryAll rfl h).2 (.inl hfound)
          simp [Trial.here?, hfound, ht']

/-- The same for the trial of all that waits at a node and all heads. -/
theorem foretells_trial (depth : Nat) (place : Place α) (position : Option Position)
    (ws : List (Waiting α)) :
    Foretells (Trial.here? · place) ((s.stopping true).trial depth place position ws)
      ((s.stopping false).trial depth place position ws) :=
  foretells_tryAll rfl

variable [Element α]

mutual
/-- A search of a subtree that stops at its first find foretells the full one. -/
theorem foretells_visit : (t : Tree α) → (depth : Nat) → (path : Path) →
    (position : Option Position) → (ws : List (Waiting α)) →
    Foretells Hits.first? ((s.stopping true).visit depth path position ws t)
      ((s.stopping false).visit depth path position ws t)
  | .leaf a, depth, path, position, ws => by
    rw [visit, visit]
    apply (foretells_trial depth ⟨path, .leaf a⟩ position ws).bind
    · intro t ht
      have hfound : t.found = false := Trial.here?_eq_none.1 ht
      apply foretells_of_none
      simp [Hits.first?, hfound]
    · intro t ht
      have hfound : t.found = true := by rwa [Trial.isSome_here?] at ht
      refine ⟨_, rfl, by simp [Hits.first?, hfound], fun t' ht' hits h ↦ ?_⟩
      have hfound' : t'.found = true := by
        rw [← Trial.isSome_here? t', ht', ht]
      rw [← Except.ok.inj h]
      simp [Hits.first?, hfound, hfound']
  | .parent a cs, depth, path, position, ws => by
    rw [visit, visit]
    apply (foretells_trial depth ⟨path, .parent a cs⟩ position ws).bind
    · intro t ht
      have hfound : t.found = false := Trial.here?_eq_none.1 ht
      simp only [hfound, isOver, List.isEmpty_nil, Bool.not_true, Bool.and_false,
        Bool.false_eq_true, if_false, List.nil_append]
      cases hcs : cs.isEmpty with
      | true => exact foretells_of_none rfl
      | false =>
        by_cases hdeep : s.maxDepth ≤ depth
        · simp only [stopping, hdeep, Bool.false_eq_true, if_false, if_true]
          exact foretells_error _
        · simp only [stopping, hdeep, Bool.false_eq_true, if_false]
          apply (foretells_visitAll cs (depth + 1) path 0 (Position.all (cs.map Tree.type))
            t.pending.below []).bind
          · intro below hnone
            exact foretells_of_none hnone
          · intro below hsome
            refine ⟨_, rfl, hsome, fun below' hbelow hits h ↦ ?_⟩
            rw [← Except.ok.inj h]
            exact hbelow
    · intro t ht
      have hfound : t.found = true := by rwa [Trial.isSome_here?] at ht
      refine ⟨⟨[⟨path, .parent a cs⟩], t.visits, t.pending.beside⟩, ?_, rfl, fun t' ht' hits h ↦ ?_⟩
      · simp only [hfound, isOver, stopping, List.isEmpty_cons, Bool.not_false, Bool.and_self,
          if_true]
        rfl
      · have hfound' : t'.found = true := by
          rw [← Trial.isSome_here? t', ht', ht]
        simp only [hfound', isOver, stopping, Bool.false_and, Bool.false_eq_true, if_false,
          if_true] at h
        split at h
        · rw [← Except.ok.inj h]
          rfl
        · split at h
          · cases h
          · obtain ⟨below, _, h⟩ := bind_eq_ok.1 h
            rw [← Except.ok.inj h]
            rfl

/-- A search of siblings that stops at its first find foretells the full one. -/
theorem foretells_visitAll : (ts : List (Tree α)) → (depth : Nat) → (path : Path) →
    (index : Nat) → (positions : List Position) → (inherited carried : List (Waiting α)) →
    Foretells Hits.first?
      ((s.stopping true).visitAll depth path index positions inherited carried ts)
      ((s.stopping false).visitAll depth path index positions inherited carried ts)
  | [], _, _, _, _, _, _ => foretells_of_none rfl
  | t :: ts, depth, path, index, positions, inherited, carried => by
    rw [visitAll, visitAll]
    apply (foretells_visit t depth (path ++ [index]) positions.head? (inherited ++ carried)).bind
    · intro here hnone
      have hnil : here.found = [] := List.head?_eq_none_iff.1 hnone
      simp only [hnil, isOver, List.isEmpty_nil, Bool.not_true, Bool.and_false,
        Bool.false_eq_true, if_false, List.nil_append]
      apply (foretells_visitAll ts depth path (index + 1) positions.tail inherited
        here.beside).bind
      · intro behind hnone
        exact foretells_of_none hnone
      · intro behind hsome
        refine ⟨_, rfl, hsome, fun behind' hbehind hits h ↦ ?_⟩
        rw [← Except.ok.inj h]
        exact hbehind
    · intro here hsome
      obtain ⟨first, hfirst⟩ := Option.isSome_iff_exists.1 hsome
      have hover : (s.stopping true).isOver here.found = true := by
        cases hfound : here.found with
        | nil => simp [Hits.first?, hfound] at hfirst
        | cons p ps => rfl
      rw [hover]
      refine ⟨_, rfl, hsome, fun here' hhere hits h ↦ ?_⟩
      obtain ⟨behind, _, h⟩ := bind_eq_ok.1 h
      rw [← Except.ok.inj h]
      show (here'.found ++ behind.found).head? = here.first?
      rw [List.head?_append, show here'.found.head? = some first from hhere.trans hfirst, hfirst]
      rfl
end

end Search

namespace Query

variable [Element α]

private theorem foretells_run (q : Query α) (root : Tree α) :
    Outcome.Foretells Hits.first? ((q.search true root).run root)
      ((q.search false root).run root) :=
  Search.foretells_visit (s := q.search true root) root 0 [] none []

/-- Where a query finds all nodes, it finds the first of them alone. -/
theorem findFirst_of_findAll {q : Query α} {root : Tree α} {found : List (Place α)}
    (h : q.findAll root = .ok found) : q.findFirst root = .ok found.head? := by
  obtain ⟨all, hall, hfound⟩ := Outcome.bind_eq_ok.1 h
  obtain ⟨hits, hshort, hfirst⟩ := (foretells_run q root).of_ok hall
  rw [← Except.ok.inj hfound, findFirst, hshort]
  exact congrArg Except.ok hfirst

/-- The first node that a query finds is the first of all that it finds: where all are found it
is the first of them, where none is found there is none, and where it cannot be told neither
can all. -/
theorem findFirst_eq_head?_findAll (q : Query α) (root : Tree α) :
    (∀ found, q.findAll root = .ok found → q.findFirst root = .ok found.head?) ∧
      (q.findFirst root = .ok none → q.findAll root = .ok []) ∧
      ∀ e, q.findFirst root = .error e → q.findAll root = .error e := by
  unfold findAll findFirst
  rcases foretells_run q root with ⟨hsame, hnothing⟩ | ⟨hits, hshort, hfound, hfull⟩
  · rw [hsame]
    cases hrun : (q.search false root).run root with
    | error e =>
      refine ⟨fun found h ↦ ?_, fun h ↦ ?_, fun e' h ↦ ?_⟩
      · cases h
      · cases h
      · rw [← Except.error.inj h]
        rfl
    | ok hits =>
      have hnil : hits.found = [] := List.head?_eq_none_iff.1 (hnothing hits hrun)
      refine ⟨fun found h ↦ ?_, fun _ ↦ ?_, fun e h ↦ ?_⟩
      · rw [← Except.ok.inj h]
        rfl
      · show Except.ok hits.found = Except.ok []
        rw [hnil]
      · cases h
  · rw [hshort]
    refine ⟨fun found h ↦ ?_, fun h ↦ ?_, fun e h ↦ ?_⟩
    · obtain ⟨all, hall, h⟩ := Outcome.bind_eq_ok.1 h
      rw [← Except.ok.inj h]
      show Except.ok hits.first? = Except.ok all.first?
      rw [hfull all hall]
    · have hnone : hits.first? = none := Except.ok.inj h
      rw [hnone] at hfound
      cases hfound
    · cases h

end Query

end DocSelect
