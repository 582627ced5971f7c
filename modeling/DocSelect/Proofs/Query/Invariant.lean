import DocSelect.Proofs.Outcome
import DocSelect.Proofs.Query.Position
import DocSelect.Proofs.Query.Scene
import DocSelect.Proofs.Tree.Order

/-!
# Invariants of a search

A search hands steps from node to node: to the children of a node, and to its next sibling. An
invariant says what may wait at a node, and that a trial there leaves fit steps for both. What is
then told by the trials holds all over the part of the scene that was searched, by one induction
on the tree for every invariant.
-/

namespace DocSelect

variable {α : Type} [Element α]

namespace Search

/-- What holds of the steps that a search of a scene hands on, and what its trials tell. -/
structure Invariant (s : Search α) (g : Scene α) where
  /-- What waits at a node. -/
  waits : Path → List (Waiting α) → Prop
  /-- What a node leaves for each of its children. -/
  below : Path → List (Waiting α) → Prop
  /-- What a node leaves for its next sibling. -/
  beside : Path → List (Waiting α) → Prop
  /-- What is known of a node that a trial finds, or does not find. -/
  tells : Path → Place α → Bool → Prop
  waits_first {path : Path} {ws : List (Waiting α)} (hb : below path ws) : waits (path ++ [0]) ws
  waits_next {path : Path} {i : Nat} {ws vs : List (Waiting α)} (hb : below path ws)
    (hn : beside (path ++ [i]) vs) : waits (path ++ [i + 1]) (ws ++ vs)
  trial {path : Path} {place : Place α} {ws : List (Waiting α)} {t : Trial α}
    (hnode : g.node? path = some place) (hw : waits path ws)
    (h : s.trial (g.depth + path.length) place (g.top.tree.positionAt? path) ws = .ok t) :
    tells path place t.found ∧ below path t.pending.below ∧ beside path t.pending.beside

namespace Invariant

variable {s : Search α} {g : Scene α} (I : s.Invariant g)

/-- What an invariant tells about a part of a scene where some nodes were found. A search that
stops early has told nothing of the nodes that it did not reach. -/
structure Told (part : Path → Prop) (places : List (Place α)) : Prop where
  found : ∀ p ∈ places, ∃ path, part path ∧ g.node? path = some p ∧ I.tells path p true
  missed : s.firstOnly = false → ∀ path p, part path → g.node? path = some p →
    p ∈ places ∨ I.tells path p false

variable {I}

/-- Two parts of a scene, searched one after the other. -/
theorem Told.append {a b : Path → Prop} {xs ys : List (Place α)} (hx : I.Told a xs)
    (hy : I.Told b ys) : I.Told (fun path ↦ a path ∨ b path) (xs ++ ys) where
  found := by
    intro p hp
    rcases List.mem_append.1 hp with hp | hp
    · obtain ⟨path, ha, h⟩ := hx.found p hp
      exact ⟨path, .inl ha, h⟩
    · obtain ⟨path, hb, h⟩ := hy.found p hp
      exact ⟨path, .inr hb, h⟩
  missed := by
    intro hall path p hpart hp
    rcases hpart with ha | hb
    · exact (hx.missed hall path p ha hp).imp_left (List.mem_append_left ys)
    · exact (hy.missed hall path p hb hp).imp_left (List.mem_append_right xs)

/-- Parts of a scene with the same nodes. -/
theorem Told.congr {a b : Path → Prop} {found : List (Place α)} (h : I.Told a found)
    (hab : ∀ path p, g.node? path = some p → (a path ↔ b path)) : I.Told b found where
  found := by
    intro p hp
    obtain ⟨path, ha, hnode, ht⟩ := h.found p hp
    exact ⟨path, (hab path p hnode).1 ha, hnode, ht⟩
  missed := by
    intro hall path p hb hp
    exact h.missed hall path p ((hab path p hp).2 hb) hp

/-- A search that stops early may leave the rest of a part out. -/
theorem Told.extend {a b : Path → Prop} {found : List (Place α)} (h : I.Told a found)
    (hs : s.firstOnly = true) (hab : ∀ path, a path → b path) : I.Told b found where
  found := by
    intro p hp
    obtain ⟨path, ha, hp⟩ := h.found p hp
    exact ⟨path, hab path ha, hp⟩
  missed := by
    intro hall
    rw [hs] at hall
    cases hall

/-- A trial tells of its node. -/
theorem told_trial {path : Path} {place : Place α} {found : Bool}
    (hnode : g.node? path = some place) (h : I.tells path place found) :
    I.Told (· = path) (if found then [place] else []) := by
  constructor
  · intro p hp
    cases found with
    | false => cases hp
    | true =>
      obtain rfl := List.mem_singleton.1 hp
      exact ⟨path, rfl, hnode, h⟩
  · rintro _ _ p rfl hp
    rw [hnode] at hp
    obtain rfl := Option.some.inj hp
    cases found with
    | false => exact .inr h
    | true => exact .inl (List.mem_singleton_self place)

/-- What is told of a node with nothing below it is told of all at and below it. -/
theorem Told.of_childless {path : Path} {found : List (Place α)} (h : I.Told (· = path) found)
    (hnone : ∀ i r, g.node? (path ++ i :: r) = none) : I.Told (path <+: ·) found := by
  apply h.congr
  intro q p hq
  constructor
  · rintro rfl
    exact List.prefix_refl q
  · rintro ⟨r, rfl⟩
    cases r with
    | nil => exact List.append_nil path
    | cons i r =>
      rw [hnone i r] at hq
      cases hq

/-- What is told of a node and of all below it, from the first child on. -/
theorem Told.append_below {path : Path} {xs ys : List (Place α)} (hx : I.Told (· = path) xs)
    (hy : I.Told (fun q ↦ ∃ j r, 0 ≤ j ∧ q = path ++ j :: r) ys) :
    I.Told (path <+: ·) (xs ++ ys) := by
  apply (hx.append hy).congr
  intro q p _
  constructor
  · rintro (rfl | ⟨j, r, _, rfl⟩)
    · exact List.prefix_refl q
    · exact List.prefix_append path (j :: r)
  · rintro ⟨r, rfl⟩
    cases r with
    | nil => exact .inl (List.append_nil path)
    | cons j r => exact .inr ⟨j, r, Nat.zero_le j, rfl⟩

/-- The steps that wait at a child are those left by its parent and by its previous sibling. -/
theorem waits_child {path : Path} {index : Nat} {inherited carried : List (Waiting α)}
    (hin : I.below path inherited)
    (hca : index = 0 ∧ carried = [] ∨ ∃ j, index = j + 1 ∧ I.beside (path ++ [j]) carried) :
    I.waits (path ++ [index]) (inherited ++ carried) := by
  rcases hca with ⟨rfl, rfl⟩ | ⟨j, rfl, hca⟩
  · rw [List.append_nil]
    exact I.waits_first hin
  · exact I.waits_next hin hca

mutual
/-- A search of a subtree keeps an invariant: it tells of all nodes in it, and leaves fit steps
for the next sibling. -/
theorem told_visit : (t : Tree α) → {path full : Path} → {depth : Nat} →
    {position : Option Position} → {ws : List (Waiting α)} → {hits : Hits α} →
    depth = g.depth + path.length → position = g.top.tree.positionAt? path →
    g.top.tree.at? path = some t → g.node? path = some ⟨full, t⟩ → I.waits path ws →
    s.visit depth full position ws t = .ok hits →
    I.Told (path <+: ·) hits.found ∧ I.beside path hits.beside
  | .leaf a, path, full, _, _, ws, hits, rfl, rfl, hat, hnode, hw, h => by
    rw [visit] at h
    obtain ⟨t, ht, h⟩ := Outcome.bind_eq_ok.1 h
    obtain rfl := Except.ok.inj h
    obtain ⟨htells, _, hbeside⟩ := I.trial hnode hw ht
    exact ⟨(told_trial hnode htells).of_childless fun _ _ ↦ Scene.node?_leaf hat, hbeside⟩
  | .parent a cs, path, full, _, _, ws, hits, rfl, rfl, hat, hnode, hw, h => by
    rw [visit] at h
    obtain ⟨t, ht, h⟩ := Outcome.bind_eq_ok.1 h
    obtain ⟨htells, hbelow, hbeside⟩ := I.trial hnode hw ht
    have hhere := told_trial hnode htells
    dsimp only at h
    generalize (if t.found then [Place.mk full (.parent a cs)] else []) = here at h hhere
    split at h
    · next hover =>
      obtain rfl := Except.ok.inj h
      have hstop : s.firstOnly = true := (Bool.and_eq_true_iff.1 hover).1
      refine ⟨hhere.extend hstop ?_, hbeside⟩
      rintro q rfl
      exact List.prefix_refl q
    · split at h
      · next hnil =>
        obtain rfl := Except.ok.inj h
        have hcs : cs = [] := List.isEmpty_iff.1 hnil
        refine ⟨hhere.of_childless fun i r ↦ Scene.node?_eq_none hat ?_, hbeside⟩
        rw [hcs]
        exact Nat.zero_le i
      · split at h
        · cases h
        · obtain ⟨below, hb, h⟩ := Outcome.bind_eq_ok.1 h
          obtain rfl := Except.ok.inj h
          have hrest := told_visitAll cs (by rw [Nat.add_assoc]) hat (Scene.path_node? hnode) rfl
            rfl hbelow (.inl ⟨rfl, rfl⟩) hb
          exact ⟨hhere.append_below hrest, hbeside⟩

/-- A search of siblings from an index on keeps an invariant. -/
theorem told_visitAll : (ts : List (Tree α)) → {path full : Path} → {a : α} →
    {cs : List (Tree α)} → {depth index : Nat} → {positions : List Position} →
    {inherited carried : List (Waiting α)} → {hits : Hits α} →
    depth = g.depth + (path.length + 1) → g.top.tree.at? path = some (.parent a cs) →
    full = g.top.path ++ path → cs.drop index = ts →
    positions = (Position.all (cs.map Tree.type)).drop index → I.below path inherited →
    (index = 0 ∧ carried = [] ∨ ∃ j, index = j + 1 ∧ I.beside (path ++ [j]) carried) →
    s.visitAll depth full index positions inherited carried ts = .ok hits →
    I.Told (fun q ↦ ∃ j r, index ≤ j ∧ q = path ++ j :: r) hits.found
  | [], path, _, a, cs, _, index, _, _, _, hits, rfl, hat, rfl, hcs, rfl, _, _, h => by
    rw [visitAll] at h
    obtain rfl := Except.ok.inj h
    constructor
    · intro p hp
      cases hp
    · rintro _ _ p ⟨j, r, hj, rfl⟩ hq
      rw [Scene.node?_eq_none hat (Nat.le_trans (List.drop_eq_nil_iff.1 hcs) hj)] at hq
      cases hq
  | t :: ts, path, _, a, cs, _, index, _, inherited, carried, hits, rfl, hat, rfl, hcs, rfl,
      hin, hca, h => by
    have hat' := Tree.at?_snoc_of_drop hat hcs
    have hpos := Tree.head?_drop_positions hat index
    rw [visitAll] at h
    obtain ⟨here, hh, h⟩ := Outcome.bind_eq_ok.1 h
    rw [List.append_assoc] at hh
    obtain ⟨htold, hbeside⟩ := told_visit t (by simp) hpos hat' (Scene.node?_snoc hat')
      (waits_child hin hca) hh
    have hpart (q : Path) (hq : path ++ [index] <+: q) :
        ∃ j r, index ≤ j ∧ q = path ++ j :: r := by
      obtain ⟨r, rfl⟩ := hq
      exact ⟨index, r, Nat.le_refl index, by simp⟩
    split at h
    · next hover =>
      obtain rfl := Except.ok.inj h
      exact htold.extend (Bool.and_eq_true_iff.1 hover).1 hpart
    · obtain ⟨behind, hb, h⟩ := Outcome.bind_eq_ok.1 h
      obtain rfl := Except.ok.inj h
      have hrest := told_visitAll ts rfl hat rfl (by rw [← List.tail_drop, hcs, List.tail_cons])
        (by rw [List.tail_drop]) hin (.inr ⟨index, rfl, hbeside⟩) hb
      apply (htold.append hrest).congr
      intro q p _
      constructor
      · rintro (hq | ⟨j, r, hj, rfl⟩)
        · exact hpart q hq
        · exact ⟨j, r, Nat.le_of_succ_le hj, rfl⟩
      · rintro ⟨j, r, hj, rfl⟩
        rcases Nat.lt_or_eq_of_le hj with hlt | rfl
        · exact .inr ⟨j, r, hlt, rfl⟩
        · exact .inl ⟨r, by simp⟩
end

/-- A search from the top of a scene tells of all its nodes. -/
theorem told_run {hits : Hits α} (htop : g.withTop = true) (hw : I.waits [] [])
    (h : s.visit g.depth g.top.path none [] g.top.tree = .ok hits) :
    I.Told (fun _ ↦ True) hits.found := by
  have hnode : g.node? [] = some ⟨g.top.path, g.top.tree⟩ := by simp [Scene.node?, htop, Tree.at?]
  apply (told_visit g.top.tree rfl rfl rfl hnode hw h).1.congr
  intro path p _
  simp

/-- A search below the top of a scene tells of all nodes that take part without the top. -/
theorem told_runBelow {hits : Hits α} (htop : g.withTop = false) (hb : I.below [] [])
    (h : s.runBelow g.depth g.top = .ok hits) : I.Told (fun _ ↦ True) hits.found := by
  have hnone : g.node? [] = none := by simp [Scene.node?, htop]
  -- without children there is no node to tell of
  have hempty (hno : ∀ i r, g.node? (i :: r) = none) : I.Told (fun _ ↦ True) [] := by
    constructor
    · intro p hp
      cases hp
    · intro _ path p _ hp
      cases path with
      | nil =>
        rw [hnone] at hp
        cases hp
      | cons i r =>
        rw [hno i r] at hp
        cases hp
  unfold runBelow at h
  split at h
  · next a ht =>
    have hat : g.top.tree.at? [] = some (.leaf a) := congrArg some ht
    obtain rfl := Except.ok.inj h
    exact hempty fun i r ↦ Scene.node?_leaf hat
  · next a cs ht =>
    have hat : g.top.tree.at? [] = some (.parent a cs) := congrArg some ht
    split at h
    · next hnil =>
      obtain rfl := Except.ok.inj h
      refine hempty fun i r ↦ Scene.node?_eq_none hat ?_
      rw [List.isEmpty_iff.1 hnil]
      exact Nat.zero_le i
    · split at h
      · cases h
      · apply (told_visitAll cs rfl hat (List.append_nil _).symm rfl rfl hb (.inl ⟨rfl, rfl⟩)
          h).congr
        intro path p hp
        cases path with
        | nil =>
          rw [hnone] at hp
          cases hp
        | cons i r => simp

end Invariant

mutual
/-- A search of a subtree finds some of its nodes, in document order. -/
theorem sublist_visit {s : Search α} : (t : Tree α) → {depth : Nat} → {path : Path} →
    {position : Option Position} → {ws : List (Waiting α)} → {hits : Hits α} →
    s.visit depth path position ws t = .ok hits → hits.found.Sublist (t.placesAt path)
  | .leaf a, _, path, _, _, hits, h => by
    rw [visit] at h
    obtain ⟨t, _, h⟩ := Outcome.bind_eq_ok.1 h
    obtain rfl := Except.ok.inj h
    rw [Tree.placesAt]
    split
    · exact List.Sublist.refl _
    · exact List.nil_sublist _
  | .parent a cs, _, path, _, _, hits, h => by
    rw [visit] at h
    obtain ⟨t, _, h⟩ := Outcome.bind_eq_ok.1 h
    have hhere : (if t.found then [Place.mk path (.parent a cs)] else []).Sublist
        [⟨path, .parent a cs⟩] := by
      split
      · exact List.Sublist.refl _
      · exact List.nil_sublist _
    dsimp only at h
    generalize (if t.found then [Place.mk path (.parent a cs)] else []) = here at h hhere
    have hfirst : here.Sublist (Tree.placesAt path (.parent a cs)) := by
      rw [Tree.placesAt]
      exact hhere.trans (List.singleton_sublist.2 List.mem_cons_self)
    split at h
    · obtain rfl := Except.ok.inj h
      exact hfirst
    · split at h
      · obtain rfl := Except.ok.inj h
        exact hfirst
      · split at h
        · cases h
        · obtain ⟨below, hb, h⟩ := Outcome.bind_eq_ok.1 h
          obtain rfl := Except.ok.inj h
          rw [Tree.placesAt]
          exact hhere.append (sublist_visitAll cs hb)

/-- A search of siblings finds some of the nodes at and below them, in document order. -/
theorem sublist_visitAll {s : Search α} : (ts : List (Tree α)) → {depth : Nat} → {path : Path} →
    {index : Nat} → {positions : List Position} → {inherited carried : List (Waiting α)} →
    {hits : Hits α} → s.visitAll depth path index positions inherited carried ts = .ok hits →
    hits.found.Sublist (Tree.placesBelow path index ts)
  | [], _, _, _, _, _, _, hits, h => by
    rw [visitAll] at h
    obtain rfl := Except.ok.inj h
    exact List.nil_sublist _
  | t :: ts, _, _, _, _, _, _, hits, h => by
    rw [visitAll] at h
    obtain ⟨here, hh, h⟩ := Outcome.bind_eq_ok.1 h
    rw [Tree.placesBelow]
    split at h
    · obtain rfl := Except.ok.inj h
      exact (sublist_visit t hh).trans (List.sublist_append_left _ _)
    · obtain ⟨behind, hb, h⟩ := Outcome.bind_eq_ok.1 h
      obtain rfl := Except.ok.inj h
      exact (sublist_visit t hh).append (sublist_visitAll ts hb)
end

end Search

end DocSelect
