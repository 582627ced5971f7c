import DocSelect.Proofs.Query.Scene
import DocSelect.Proofs.Query.Structural
import DocSelect.Proofs.Query.Visits

/-!
# What a search knows at its visits

A visit is a node with all that the search tries steps with there: the depth, the position and
the steps that wait. The trace of a search is the list of its visits. What the search gives is
read off the trace, as each trial depends on nothing but its visit: the nodes that it finds, and
how many nodes it counts.

The positions of siblings come from one pass ahead of their visits. At every visit, however deep,
the position is the one counted directly among the siblings of the node.
-/

namespace DocSelect

variable {α : Type}

/-- A visit of a search. -/
structure Visit (α : Type) where
  depth : Nat
  place : Place α
  position : Option Position
  waiting : List (Waiting α)

namespace Visit

/-- The trial at a visit. -/
def trial (s : Search α) (v : Visit α) : Except MatchError (Trial α) :=
  s.trial v.depth v.place v.position v.waiting

/-- Whether the trial at a visit finds the node. -/
def finds (s : Search α) (v : Visit α) : Bool := (v.trial s).toOption.any Trial.found

/-- How many nodes the trial at a visit counts: the node itself, and those that its tests visit. -/
def visits (s : Search α) (v : Visit α) : Nat := (v.trial s).toOption.elim 0 Trial.visits

end Visit

namespace Search

section Trace

variable [Element α] (s : Search α)

mutual
/-- The visits of a search of a subtree, in order. -/
def trace (depth : Nat) (path : Path) (position : Option Position) (waiting : List (Waiting α)) :
    Tree α → List (Visit α)
  | .leaf a => [⟨depth, ⟨path, .leaf a⟩, position, waiting⟩]
  | .parent a cs =>
    let place : Place α := ⟨path, .parent a cs⟩
    ⟨depth, place, position, waiting⟩ :: match s.trial depth place position waiting with
      | .error _ => []
      | .ok t =>
        if s.isOver (if t.found then [place] else []) then []
        else if s.maxDepth ≤ depth then []
        else traceAll (depth + 1) path 0 (Position.all (cs.map Tree.type)) t.pending.below [] cs

/-- The visits of a search of siblings from an index on, in order. -/
def traceAll (depth : Nat) (path : Path) (index : Nat) (positions : List Position)
    (inherited carried : List (Waiting α)) : List (Tree α) → List (Visit α)
  | [] => []
  | t :: ts =>
    trace depth (path ++ [index]) positions.head? (inherited ++ carried) t ++
      match s.visit depth (path ++ [index]) positions.head? (inherited ++ carried) t with
      | .error _ => []
      | .ok here =>
        if s.isOver here.found then []
        else traceAll depth path (index + 1) positions.tail inherited here.beside ts
end

end Trace

open Outcome

/-! ### Traces and answers -/

/-- The nodes of those visits that find them. -/
def foundAt (s : Search α) (vs : List (Visit α)) : List (Place α) :=
  (vs.filter (Visit.finds s)).map Visit.place

/-- How many nodes all trials at some visits count. -/
def visitsAt (s : Search α) (vs : List (Visit α)) : Nat := (vs.map (Visit.visits s)).sum

/-- Whether some visits tell what a search gives: the nodes that it finds are those that its trials
find, and it counts as many nodes as all of its trials together. -/
structure Tells (s : Search α) (vs : List (Visit α)) (hits : Hits α) : Prop where
  found : hits.found = s.foundAt vs
  visits : hits.visits = s.visitsAt vs

variable {s : Search α}

namespace Tells

variable {us vs : List (Visit α)} {beside beside' : List (Waiting α)}

/-- No visits tell of nothing. -/
theorem nil : s.Tells [] ⟨[], 0, beside⟩ := ⟨rfl, rfl⟩

/-- One visit tells what its trial gives. -/
theorem singleton {v : Visit α} {t : Trial α} (h : v.trial s = .ok t) :
    s.Tells [v] ⟨if t.found then [v.place] else [], t.visits, beside⟩ where
  found := by
    have hfinds : v.finds s = t.found := by rw [Visit.finds, h]; rfl
    cases hfound : t.found <;> simp [foundAt, hfinds, hfound]
  visits := by
    rw [visitsAt, List.map_singleton, List.sum_singleton, Visit.visits, h]
    rfl

/-- Visits one after the other tell of both parts of a search. -/
theorem append {here behind : Hits α} (hu : s.Tells us here) (hv : s.Tells vs behind) :
    s.Tells (us ++ vs) ⟨here.found ++ behind.found, here.visits + behind.visits, beside'⟩ where
  found := by rw [foundAt, List.filter_append, List.map_append, hu.found, hv.found]; rfl
  visits := by rw [visitsAt, List.map_append, List.sum_append, hu.visits, hv.visits]; rfl

end Tells

variable [Element α]

mutual
/-- A search of a subtree gives what its visits tell. -/
theorem tells_visit : (t : Tree α) → {depth : Nat} → {path : Path} →
    {position : Option Position} → {ws : List (Waiting α)} → {hits : Hits α} →
    s.visit depth path position ws t = .ok hits →
    s.Tells (s.trace depth path position ws t) hits
  | .leaf a, depth, path, position, ws, hits, h => by
    rw [visit] at h
    obtain ⟨t, ht, h⟩ := bind_eq_ok.1 h
    obtain rfl := Except.ok.inj h
    rw [trace]
    exact .singleton ht
  | .parent a cs, depth, path, position, ws, hits, h => by
    rw [visit] at h
    obtain ⟨t, ht, h⟩ := bind_eq_ok.1 h
    -- the trial at the node itself stands in front of what is told of the nodes below it
    have hhere : s.Tells [⟨depth, ⟨path, .parent a cs⟩, position, ws⟩]
      ⟨if t.found then [⟨path, .parent a cs⟩] else [], t.visits, t.pending.beside⟩ := .singleton ht
    rw [trace, ht]
    dsimp only at h ⊢
    generalize (if t.found then [Place.mk path (.parent a cs)] else []) = here at h hhere ⊢
    split at h
    · next hover =>
      obtain rfl := Except.ok.inj h
      rwa [if_pos hover]
    · next hover =>
      rw [if_neg hover]
      split at h
      · next hnil =>
        obtain rfl := Except.ok.inj h
        obtain rfl := List.isEmpty_iff.1 hnil
        rwa [traceAll, ite_self]
      · split at h
        · cases h
        · next hdeep =>
          obtain ⟨below, hb, h⟩ := bind_eq_ok.1 h
          obtain rfl := Except.ok.inj h
          rw [if_neg hdeep]
          exact hhere.append (tells_visitAll cs hb)

/-- A search of siblings gives what its visits tell. -/
theorem tells_visitAll : (ts : List (Tree α)) → {depth : Nat} → {path : Path} → {index : Nat} →
    {positions : List Position} → {inherited carried : List (Waiting α)} → {hits : Hits α} →
    s.visitAll depth path index positions inherited carried ts = .ok hits →
    s.Tells (s.traceAll depth path index positions inherited carried ts) hits
  | [], _, _, _, _, _, _, _, h => by
    obtain rfl := Except.ok.inj h
    exact .nil
  | t :: ts, depth, path, index, positions, inherited, carried, hits, h => by
    rw [visitAll] at h
    obtain ⟨here, hh, h⟩ := bind_eq_ok.1 h
    have hhere := tells_visit t hh
    rw [traceAll, hh]
    dsimp only
    split at h
    · next hover =>
      obtain rfl := Except.ok.inj h
      rw [if_pos hover]
      exact ⟨by rw [List.append_nil]; exact hhere.found, by
        rw [List.append_nil]; exact hhere.visits⟩
    · next hover =>
      obtain ⟨behind, hb, h⟩ := bind_eq_ok.1 h
      obtain rfl := Except.ok.inj h
      rw [if_neg hover]
      exact hhere.append (tells_visitAll ts hb)
end

mutual
/-- The visits of a search are at the nodes that it visits. -/
theorem map_place_trace : (t : Tree α) → (depth : Nat) → (path : Path) →
    (position : Option Position) → (ws : List (Waiting α)) →
    (s.trace depth path position ws t).map Visit.place = s.visited depth path position ws t
  | .leaf a, depth, path, position, ws => by
    rw [trace, visited]
    rfl
  | .parent a cs, depth, path, position, ws => by
    rw [trace, visited, List.map_cons]
    refine congrArg (List.cons _) ?_
    cases s.trial depth ⟨path, .parent a cs⟩ position ws with
    | error e => rfl
    | ok t =>
      dsimp only
      generalize (if t.found then [Place.mk path (.parent a cs)] else []) = here
      split
      · rfl
      split
      · rfl
      exact map_place_traceAll cs (depth + 1) path 0 _ t.pending.below []

/-- The visits of a search of siblings are at the nodes that it visits. -/
theorem map_place_traceAll : (ts : List (Tree α)) → (depth : Nat) → (path : Path) →
    (index : Nat) → (positions : List Position) → (inherited carried : List (Waiting α)) →
    (s.traceAll depth path index positions inherited carried ts).map Visit.place =
      s.visitedAll depth path index positions inherited carried ts
  | [], depth, path, index, positions, inherited, carried => by
    rw [traceAll, visitedAll]
    rfl
  | t :: ts, depth, path, index, positions, inherited, carried => by
    rw [traceAll, visitedAll, List.map_append, map_place_trace t]
    refine congrArg (List.append _) ?_
    cases s.visit depth (path ++ [index]) positions.head? (inherited ++ carried) t with
    | error e => rfl
    | ok here =>
      dsimp only
      split
      · rfl
      exact map_place_traceAll ts depth path (index + 1) positions.tail inherited here.beside
end

end Search

/-! ### Positions at visits -/

/-- Whether a visit is at a node below some path, at the position of that node counted directly
in a tree with its root there. -/
def Visit.Stands [Element α] (top : Path) (root : Tree α) (v : Visit α) : Prop :=
  ∃ path, v.place.path = top ++ path ∧ root.at? path = some v.place.tree ∧
    v.position = root.positionAt? path

namespace Search

variable [Element α] {s : Search α} {top : Path} {root : Tree α}

mutual
/-- A search of a subtree from the position of its root makes all visits at the positions of
their nodes. -/
theorem stands_trace : (t : Tree α) → {depth : Nat} → {path : Path} → {ws : List (Waiting α)} →
    root.at? path = some t →
    ∀ v ∈ s.trace depth (top ++ path) (root.positionAt? path) ws t, v.Stands top root
  | .leaf a, depth, path, ws, hat => by
    rw [trace, List.forall_mem_singleton]
    exact ⟨path, rfl, hat, rfl⟩
  | .parent a cs, depth, path, ws, hat => by
    rw [trace, List.forall_mem_cons]
    refine ⟨⟨path, rfl, hat, rfl⟩, ?_⟩
    cases s.trial depth ⟨top ++ path, .parent a cs⟩ (root.positionAt? path) ws with
    | error e => exact List.forall_mem_nil _
    | ok t =>
      dsimp only
      generalize (if t.found then [Place.mk (top ++ path) (.parent a cs)] else []) = here
      split
      · exact List.forall_mem_nil _
      split
      · exact List.forall_mem_nil _
      exact stands_traceAll cs hat rfl rfl

/-- A search of siblings by the positions from the pass makes all visits at the positions of
their nodes. -/
theorem stands_traceAll : (ts : List (Tree α)) → {depth : Nat} → {path : Path} → {a : α} →
    {cs : List (Tree α)} → {index : Nat} → {positions : List Position} →
    {inherited carried : List (Waiting α)} → root.at? path = some (.parent a cs) →
    cs.drop index = ts → positions = (Position.all (cs.map Tree.type)).drop index →
    ∀ v ∈ s.traceAll depth (top ++ path) index positions inherited carried ts, v.Stands top root
  | [], _, _, _, _, _, _, _, _, _, _, _ => by
    rw [traceAll]
    exact List.forall_mem_nil _
  | t :: ts, depth, path, a, cs, index, _, inherited, carried, hat, hcs, rfl => by
    rw [traceAll, Tree.head?_drop_positions hat, List.append_assoc, List.forall_mem_append]
    refine ⟨stands_trace t (Tree.at?_snoc_of_drop hat hcs), ?_⟩
    split
    · exact List.forall_mem_nil _
    split
    · exact List.forall_mem_nil _
    exact stands_traceAll ts hat (by rw [← List.tail_drop, hcs, List.tail_cons])
      (by rw [List.tail_drop])
end

/-- In a search of a tree every visit is at the position of its node counted directly. -/
theorem position_of_mem_trace {v : Visit α} (h : v ∈ s.trace 0 [] none [] root) :
    v.position = root.positionAt? v.place.path := by
  have hroot : root.at? [] = some root := rfl
  have hstands : v.Stands [] root := stands_trace root hroot v h
  obtain ⟨path, hpath, -, hposition⟩ := hstands
  rw [hposition, hpath, List.nil_append]

/-- A search of siblings visits each of them at the position counted directly. -/
theorem position_of_mem_traceAll {siblings : List (Tree α)} {depth : Nat} {path : Path}
    {inherited : List (Waiting α)} {v : Visit α} {i : Nat}
    (h : v ∈ s.traceAll depth path 0 (Position.all (siblings.map Tree.type)) inherited [] siblings)
    (hv : v.place.path = path ++ [i]) :
    v.position = Position.among? (siblings.map Tree.type) i := by
  cases siblings with
  | nil => cases h
  | cons t ts =>
    -- any parent will do, as positions do not ask for it
    have hroot : (Tree.parent t.content (t :: ts)).at? [] =
      some (.parent t.content (t :: ts)) := rfl
    rw [← List.append_nil path] at h
    obtain ⟨q, hpath, -, hposition⟩ := stands_traceAll (t :: ts) hroot rfl rfl v h
    rw [hv, List.append_cancel_left_eq] at hpath
    rw [hposition, ← hpath]
    exact Tree.positionAt?_snoc hroot i

end Search

/-- The pass over siblings gives each of them the position counted directly, at which every search
visits it, be it a search of the siblings or of a whole tree that they stand in: its index among its
type is at most its index and below the number of that type, which is at most the number of all
siblings. -/
theorem Search.position_sibling [Element α] (siblings : List (Tree α)) {i : Nat}
    (hi : i < siblings.length) :
    ∃ p, (Position.all (siblings.map Tree.type))[i]? = some p ∧
      Position.among? (siblings.map Tree.type) i = some p ∧
      p.typeIndex ≤ p.index ∧ p.index < p.count ∧
      p.typeIndex < p.typeCount ∧ p.typeCount ≤ p.count ∧
      (∀ (s : Search α) (depth : Nat) (path : Path) (inherited : List (Waiting α)),
        ∀ v ∈ s.traceAll depth path 0 (Position.all (siblings.map Tree.type)) inherited []
          siblings, v.place.path = path ++ [i] → v.position = some p) ∧
      ∀ (s : Search α) (root : Tree α) (path : Path) (a : α),
        root.at? path = some (.parent a siblings) →
        ∀ v ∈ s.trace 0 [] none [] root, v.place.path = path ++ [i] → v.position = some p := by
  have hi' : i < (siblings.map Tree.type).length := by rwa [List.length_map]
  obtain ⟨p, hp⟩ : ∃ p, Position.among? (siblings.map Tree.type) i = some p := by
    rw [Position.among?, List.getElem?_eq_getElem hi']
    exact ⟨_, rfl⟩
  obtain ⟨hindex, htypeIndex⟩ := Position.proper_of_among? hp
  obtain ⟨hle, hcount⟩ := Position.type_le_of_among? hp
  refine ⟨p, by rw [Position.getElem?_all, hp], hp, hle, hindex, htypeIndex, hcount, ?_, ?_⟩
  · intro s depth path inherited v hv hpath
    rw [position_of_mem_traceAll hv hpath, hp]
  · intro s root path a hat v hv hpath
    rw [position_of_mem_trace hv, hpath, Tree.positionAt?_snoc hat i, hp]

/-- Among `a`, `b`, `A` and `c` the third is the second of two of its type, and a search for
nothing visits it there. -/
theorem Search.position_sibling_abAc :
    let siblings := [Node.ofType "a", Node.ofType "b", Node.ofType "A", Node.ofType "c"]
    let types := siblings.map Tree.type
    2 < siblings.length ∧ (Position.all types)[2]? = some ⟨2, 4, 1, 2⟩ ∧
      ∃ v ∈ (⟨[], false, [], 1⟩ : Search Content).traceAll 1 [] 0 (Position.all types) [] []
        siblings, v.place.path = [2] ∧ v.position = some ⟨2, 4, 1, 2⟩ := by
  intro siblings types
  obtain ⟨p, hall, hp, -, -, -, -, hvisit, -⟩ :=
    Search.position_sibling siblings (i := 2) (by decide)
  obtain rfl : p = ⟨2, 4, 1, 2⟩ := Option.some.inj (hp.symm.trans rfl)
  let s : Search Content := ⟨[], false, [], 1⟩
  let v : Visit Content := ⟨1, ⟨[2], Node.ofType "A"⟩, some ⟨2, 4, 1, 2⟩, []⟩
  have hv : v ∈ s.traceAll 1 [] 0 (Position.all types) [] [] siblings :=
    List.mem_of_getElem? (rfl : _[2]? = some v)
  exact ⟨by decide, hall, v, hv, rfl, hvisit s 1 [] [] v hv rfl⟩

end DocSelect
