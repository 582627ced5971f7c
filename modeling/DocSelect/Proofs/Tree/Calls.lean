import DocSelect.Tree.Prune
import DocSelect.Proofs.Tree.Places

/-!
# The calls that pruning makes

Pruning may ask a test that keeps a state, so which nodes are asked about depends on what the test
has answered before. The calls are noted by a test that adds them to its state. They are made in
document order, on the nodes that stand below none that an answer has dropped; each answer comes
from the state that the calls before it have left. Cascading removes parents only after the calls
below them, and makes no difference to the calls.
-/

namespace DocSelect

variable {α σ : Type}

/-- A call of a test: the node that it is asked about, and its answer. -/
structure Call (α : Type) where
  node : Place α
  answer : Bool

namespace Call

/-- Whether the answer drops what stands below it, given the answer that drops nodes. -/
def hides (drops : Bool) (c : Call α) (n : Place α) : Bool :=
  c.answer == drops && c.node.isAbove n

/-- Asks a test about nodes one after the other. -/
def consult (test : Place α → σ → Bool × σ) : List (Place α) → σ → List (Call α) × σ
  | [], state => ([], state)
  | n :: ns, state =>
    let (answer, state) := test n state
    let (calls, state) := consult test ns state
    (⟨n, answer⟩ :: calls, state)

/-- The test that also notes its calls. -/
def noting (test : Place α → σ → Bool × σ) (n : Place α) :
    σ × List (Call α) → Bool × σ × List (Call α)
  | (state, calls) =>
    let (answer, state) := test n state
    (answer, state, calls ++ [⟨n, answer⟩])

/-- The test that keeps a node unless the answer is the one that drops nodes. -/
def sparing (drops : Bool) (test : Place α → σ → Bool × σ) (n : Place α) (state : σ) : Bool × σ :=
  let (answer, state) := test n state
  (answer != drops, state)

/-- Whether these are the calls that go through nodes, and the state that they leave: on the nodes
below none that an answer drops, in their order, each one from the state that is left before. -/
structure Surveys (test : Place α → σ → Bool × σ) (drops : Bool) (ns : List (Place α)) (state : σ)
    (calls : List (Call α)) (final : σ) : Prop where
  nodes : calls.map node = ns.filter fun n ↦ !calls.any (·.hides drops n)
  answers : consult test (calls.map node) state = (calls, final)

/-! ### Going through nodes -/

variable {test : Place α → σ → Bool × σ} {drops : Bool} {ns ms : List (Place α)}
  {state next final : σ} {calls more : List (Call α)}

/-- Asking about more nodes goes on from the state that is left. -/
theorem consult_append (h : consult test ns state = (calls, next))
    (h' : consult test ms next = (more, final)) :
    consult test (ns ++ ms) state = (calls ++ more, final) := by
  induction ns generalizing state calls with
  | nil =>
    cases h
    exact h'
  | cons n ns ih =>
    rw [consult] at h
    cases h
    rw [List.cons_append, consult]
    simp only [ih rfl, List.cons_append]

namespace Surveys

/-- Calls are made on the nodes that are gone through. -/
theorem node_mem (h : Surveys test drops ns state calls final) {c : Call α} (hc : c ∈ calls) :
    c.node ∈ ns := by
  have hmem : c.node ∈ calls.map node := List.mem_map_of_mem hc
  rw [h.nodes] at hmem
  exact List.mem_of_mem_filter hmem

/-- Nodes that are gone through once are called on once. -/
theorem nodup (h : Surveys test drops ns state calls final) (hn : ns.Nodup) :
    (calls.map node).Nodup := by
  rw [h.nodes]
  exact hn.filter _

/-- Without nodes there are no calls. -/
theorem nil : Surveys test drops [] state [] state := ⟨rfl, rfl⟩

/-- A node that is dropped hides the nodes below it. -/
theorem dropped {n : Place α} (hn : test n state = (drops, final))
    (h : ∀ m ∈ ns, n.isAbove m = true) : Surveys test drops (n :: ns) state [⟨n, drops⟩] final where
  nodes := by
    have hself : n.isAbove n = false := by simp [Place.isAbove]
    simpa [hides, hself] using h
  answers := by simp [consult, hn]

/-- A node that is kept is called on before the nodes behind it. -/
theorem kept {n : Place α} (hn : test n state = (!drops, next))
    (h : Surveys test drops ns next calls final) (hback : ∀ m ∈ ns, m.isAbove n = false) :
    Surveys test drops (n :: ns) state (⟨n, !drops⟩ :: calls) final where
  nodes := by
    have hshown : calls.any (·.hides drops n) = false :=
      List.any_eq_false.2 fun c hc ↦ by simp [hides, hback c.node (h.node_mem hc)]
    have hself (m : Place α) : (Call.mk n !drops).hides drops m = false := by cases drops <;> rfl
    simp only [List.map_cons, h.nodes, List.filter_cons, List.any_cons, hself, hshown,
      Bool.false_or, Bool.not_false, if_true]
  answers := by simp only [List.map_cons, consult, hn, h.answers]

/-- Nodes none of which stands above one of the others are gone through on their own. -/
theorem append (h : Surveys test drops ns state calls next)
    (h' : Surveys test drops ms next more final)
    (hapart : ∀ n ∈ ns, ∀ m ∈ ms, n.isAbove m = false ∧ m.isAbove n = false) :
    Surveys test drops (ns ++ ms) state (calls ++ more) final where
  nodes := by
    rw [List.map_append, List.filter_append, h.nodes, h'.nodes]
    congr 1
    · refine List.filter_congr fun n hn ↦ ?_
      have hmore : more.any (·.hides drops n) = false :=
        List.any_eq_false.2 fun c hc ↦ by simp [hides, (hapart n hn c.node (h'.node_mem hc)).2]
      rw [List.any_append, hmore, Bool.or_false]
    · refine List.filter_congr fun m hm ↦ ?_
      have hcalls : calls.any (·.hides drops m) = false :=
        List.any_eq_false.2 fun c hc ↦ by simp [hides, (hapart c.node (h.node_mem hc) m hm).1]
      rw [List.any_append, hcalls, Bool.false_or]
  answers := by
    rw [List.map_append]
    exact consult_append h.answers h'.answers

end Surveys

end Call

/-! ### Going through a tree -/

namespace Tree

/-- A node stands above those at and below its children. -/
theorem isAbove_of_mem_placesBelow {p m : Place α} {index : Nat} {ts : List (Tree α)}
    (hm : m ∈ placesBelow p.path index ts) : p.isAbove m = true := by
  obtain ⟨i, r, u, _, rfl⟩ := (mem_placesBelow ts).1 hm
  exact Place.isAbove_iff.2 ⟨index + i, r, rfl⟩

/-- No node at or below its children stands above a node. -/
theorem not_isAbove_of_mem_placesBelow {p m : Place α} {index : Nat} {ts : List (Tree α)}
    (hm : m ∈ placesBelow p.path index ts) : m.isAbove p = false := by
  obtain ⟨i, r, u, _, rfl⟩ := (mem_placesBelow ts).1 hm
  simp [← Bool.not_eq_true, Place.isAbove_iff]

/-- Siblings and what is below them do not stand above each other. -/
theorem apart_of_mem {path : Path} {index : Nat} {t : Tree α} {ts : List (Tree α)} {n m : Place α}
    (hn : n ∈ placesAt (path ++ [index]) t) (hm : m ∈ placesBelow path (index + 1) ts) :
    n.isAbove m = false ∧ m.isAbove n = false := by
  obtain ⟨r, u, _, rfl⟩ := (mem_placesAt t).1 hn
  obtain ⟨i, r', u', _, rfl⟩ := (mem_placesBelow ts).1 hm
  simp only [← Bool.not_eq_true, Place.isAbove_iff, List.append_assoc, List.cons_append,
    List.append_cancel_left_eq, List.cons.injEq]
  constructor
  · rintro ⟨j, s, hindex, _⟩
    omega
  · rintro ⟨j, s, hindex, _⟩
    omega

open Call

section Survey

variable (test : Place α → σ → Bool × σ) (drops : Bool)

mutual
/-- Pruning a subtree goes through its nodes, whether it cascades or not. -/
theorem surveys_rebuild : (t : Tree α) → (path : Path) → (state : σ) →
    ∃ calls final, Surveys test drops (t.placesAt path) state calls final ∧
      ∀ cascade noted, (t.rebuild (sparing drops (noting test)) cascade path (state, noted)).2 =
        (final, noted ++ calls)
  | .leaf a, path, state => by
    obtain ⟨answer, final, h⟩ : ∃ answer final, test ⟨path, .leaf a⟩ state = (answer, final) :=
      ⟨_, _, rfl⟩
    rw [placesAt]
    refine ⟨[⟨⟨path, .leaf a⟩, answer⟩], final, ?_, fun cascade noted ↦ ?_⟩
    · rcases Bool.eq_or_eq_not answer drops with rfl | rfl
      · exact .dropped h (List.forall_mem_nil _)
      · exact .kept h .nil (List.forall_mem_nil _)
    · simp only [rebuild, sparing, noting, h]
  | .parent a cs, path, state => by
    obtain ⟨answer, next, h⟩ : ∃ answer next, test ⟨path, .parent a cs⟩ state = (answer, next) :=
      ⟨_, _, rfl⟩
    rw [placesAt]
    rcases Bool.eq_or_eq_not answer drops with rfl | rfl
    · refine ⟨_, next, .dropped h fun m hm ↦ isAbove_of_mem_placesBelow hm,
        fun cascade noted ↦ ?_⟩
      simp [rebuild, sparing, noting, h]
    · obtain ⟨calls, final, hsurveys, hrun⟩ := surveys_rebuildAll cs path 0 next
      refine ⟨_, final, .kept h hsurveys fun m hm ↦ not_isAbove_of_mem_placesBelow hm,
        fun cascade noted ↦ ?_⟩
      -- cascading comes behind the children, so it makes no difference to the calls
      simp [rebuild, sparing, noting, h, hrun]

/-- Pruning siblings goes through the nodes at and below them, whether it cascades or not. -/
theorem surveys_rebuildAll : (ts : List (Tree α)) → (path : Path) → (index : Nat) → (state : σ) →
    ∃ calls final, Surveys test drops (placesBelow path index ts) state calls final ∧
      ∀ cascade noted,
        (rebuildAll (sparing drops (noting test)) cascade path index ts (state, noted)).2 =
          (final, noted ++ calls)
  | [], path, index, state => by
    rw [placesBelow]
    exact ⟨[], state, .nil, fun cascade noted ↦ by rw [rebuildAll, List.append_nil]⟩
  | t :: ts, path, index, state => by
    obtain ⟨calls, next, hsurveys, hrun⟩ := surveys_rebuild t (path ++ [index]) state
    obtain ⟨more, final, hsurveys', hrun'⟩ := surveys_rebuildAll ts path (index + 1) next
    rw [placesBelow]
    refine ⟨calls ++ more, final, hsurveys.append hsurveys' fun n hn m hm ↦ apart_of_mem hn hm,
      fun cascade noted ↦ ?_⟩
    rw [rebuildAll]
    simp only [hrun, hrun', List.append_assoc]
end

end Survey

section View

variable {τ : Type} {keep : Place α → σ → Bool × σ} {keep' : Place α → τ → Bool × τ} {view : τ → σ}

mutual
/-- Pruning makes no use of what a test adds to its state. -/
theorem rebuild_view (h : ∀ n state, keep n (view state) = (keep' n state).map id view)
    (cascade : Bool) : (t : Tree α) → (path : Path) → (state : τ) →
    t.rebuild keep cascade path (view state) = (t.rebuild keep' cascade path state).map id view
  | .leaf a, path, state => by
    simp [rebuild, h]
  | .parent a cs, path, state => by
    have hrest := rebuildAll_view h cascade cs path 0 (keep' ⟨path, .parent a cs⟩ state).2
    simp only [rebuild, h, Prod.map_fst, Prod.map_snd, id_eq, hrest]
    split <;> rfl

/-- Pruning siblings makes no use of what a test adds to its state. -/
theorem rebuildAll_view (h : ∀ n state, keep n (view state) = (keep' n state).map id view)
    (cascade : Bool) : (ts : List (Tree α)) → (path : Path) → (index : Nat) → (state : τ) →
    rebuildAll keep cascade path index ts (view state) =
      (rebuildAll keep' cascade path index ts state).map id view
  | [], path, index, state => rfl
  | t :: ts, path, index, state => by
    have hhere := rebuild_view h cascade t (path ++ [index]) state
    have hbehind := rebuildAll_view h cascade ts path (index + 1)
      (rebuild keep' cascade (path ++ [index]) t state).2
    simp only [rebuildAll, hhere, Prod.map_fst, Prod.map_snd, id_eq, hbehind]
    rfl
end

end View

/-- The calls of a test that prunes a tree, noted or not, with cascading or without. -/
theorem exists_calls (test : Place α → σ → Bool × σ) (drops : Bool) (t : Tree α) (state : σ) :
    ∃ calls final, Surveys test drops t.places state calls final ∧ ∀ cascade, ∃ left,
      t.rebuild (sparing drops test) cascade [] state = (left, final) ∧
        t.rebuild (sparing drops (noting test)) cascade [] (state, []) = (left, final, calls) := by
  obtain ⟨calls, final, hsurveys, hrun⟩ := surveys_rebuild test drops t [] state
  refine ⟨calls, final, hsurveys, fun cascade ↦ ?_⟩
  have hsame (n : Place α) (state : σ × List (Call α)) : sparing drops test n (Prod.fst state) =
      (sparing drops (noting test) n state).map id Prod.fst := rfl
  have hview := rebuild_view hsame cascade t [] (state, [])
  have hnoted := hrun cascade []
  rw [List.nil_append] at hnoted
  refine ⟨(t.rebuild (sparing drops (noting test)) cascade [] (state, [])).1, ?_, ?_⟩
  · rw [hview]
    simp [Prod.map, hnoted]
  · exact Prod.ext rfl hnoted

/-- Rejecting drops the nodes that the test answers with yes. -/
theorem rejectWith_eq_rebuild (test : Place α → σ → Bool × σ) (cascade : Bool) (t : Tree α)
    (state : σ) :
    t.rejectWith test cascade state = t.rebuild (sparing true test) cascade [] state := by
  have htest : (fun n state ↦ (!(test n state).1, (test n state).2)) = sparing true test := by
    funext n state
    simp [sparing]
  rw [← htest]
  rfl

/-- Filtering drops the nodes that the test answers with no. -/
theorem filterWith_eq_rebuild (test : Place α → σ → Bool × σ) (cascade : Bool) (t : Tree α)
    (state : σ) :
    t.filterWith test cascade state = t.rebuild (sparing false test) cascade [] state := by
  have htest : sparing false test = test := by
    funext n state
    simp [sparing]
  rw [htest]
  rfl

/-- Rejecting and filtering call their test on the nodes below none that it removes, in document
order and each once. The calls and the state that they leave are the same with cascading and
without, and noting them changes nothing else. -/
theorem surveys_reject_filter (test : Place α → σ → Bool × σ) (t : Tree α) (state : σ) :
    (∃ calls final, Surveys test true t.places state calls final ∧ (calls.map node).Nodup ∧
      ∀ cascade, ∃ left, t.rejectWith test cascade state = (left, final) ∧
        t.rejectWith (noting test) cascade (state, []) = (left, final, calls)) ∧
    (∃ calls final, Surveys test false t.places state calls final ∧ (calls.map node).Nodup ∧
      ∀ cascade, ∃ left, t.filterWith test cascade state = (left, final) ∧
        t.filterWith (noting test) cascade (state, []) = (left, final, calls)) := by
  constructor
  · obtain ⟨calls, final, hsurveys, hrun⟩ := exists_calls test true t state
    refine ⟨calls, final, hsurveys, hsurveys.nodup (Place.nodup_of_ordered t.ordered_places), ?_⟩
    simpa only [rejectWith_eq_rebuild] using hrun
  · obtain ⟨calls, final, hsurveys, hrun⟩ := exists_calls test false t state
    refine ⟨calls, final, hsurveys, hsurveys.nodup (Place.nodup_of_ordered t.ordered_places), ?_⟩
    simpa only [filterWith_eq_rebuild] using hrun

/-- A test that rejects from its third call on is called four times: the third node called on
goes, and nothing below it is called on. -/
example : ((parent 0 [leaf 1, parent 2 [leaf 3], leaf 4]).rejectWith
    (fun _ count ↦ (decide (2 ≤ count), count + 1)) true 0) =
      (some (parent 0 [leaf 1]), 4) := rfl

end Tree

end DocSelect
