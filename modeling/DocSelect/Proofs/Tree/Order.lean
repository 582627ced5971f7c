import DocSelect.Tree.Basic
import Mathlib.Data.List.Sort

/-!
# Document order

The nodes of a tree in document order: each node before those below it, and siblings with all
that is below them one after the other. The paths of this list are in strictly increasing
lexicographic order, so a list of nodes is in document order if its paths are.
-/

namespace DocSelect

namespace Tree

variable {α : Type}

/-- What is collected from one tree after the other can be collected in two parts. -/
theorem collect_append {β : Type} {f : List (Tree α) → List β} {g : Tree α → List β}
    (hnil : f [] = []) (hcons : ∀ t ts, f (t :: ts) = g t ++ f ts) (ts us : List (Tree α)) :
    f (ts ++ us) = f ts ++ f us := by
  induction ts with
  | nil => rw [hnil, List.nil_append, List.nil_append]
  | cons t ts ih => rw [List.cons_append, hcons, hcons, ih, List.append_assoc]

/-- The subtree at a path is reached step by step. -/
theorem at?_append (t : Tree α) (p q : Path) : t.at? (p ++ q) = (t.at? p).bind (·.at? q) := by
  induction p generalizing t with
  | nil => rfl
  | cons i p ih =>
    cases t with
    | leaf a => rfl
    | parent a cs =>
      simp only [List.cons_append, at?]
      cases cs[i]? with
      | none => rfl
      | some child => exact ih child

mutual
/-- The nodes of a subtree at a path, in document order. -/
def placesAt (path : Path) : Tree α → List (Place α)
  | .leaf a => [⟨path, .leaf a⟩]
  | .parent a cs => ⟨path, .parent a cs⟩ :: placesBelow path 0 cs

/-- The nodes at and below siblings from an index on, in document order. -/
def placesBelow (path : Path) (index : Nat) : List (Tree α) → List (Place α)
  | [] => []
  | t :: ts => placesAt (path ++ [index]) t ++ placesBelow path (index + 1) ts
end

/-- The nodes of a tree in document order. -/
def places (t : Tree α) : List (Place α) := t.placesAt []

mutual
/-- The nodes of a subtree are those that its paths lead to. -/
theorem mem_placesAt : (t : Tree α) → {path : Path} → {p : Place α} →
    (p ∈ t.placesAt path ↔ ∃ r u, t.at? r = some u ∧ p = ⟨path ++ r, u⟩)
  | .leaf a, path, p => by
    rw [placesAt, List.mem_singleton]
    constructor
    · rintro rfl
      exact ⟨[], .leaf a, rfl, by simp⟩
    · rintro ⟨r, u, hr, rfl⟩
      cases r with
      | nil =>
        obtain rfl := Option.some.inj hr
        simp
      | cons i r => cases hr
  | .parent a cs, path, p => by
    rw [placesAt, List.mem_cons, mem_placesBelow cs]
    constructor
    · rintro (rfl | ⟨i, r, u, hu, rfl⟩)
      · exact ⟨[], .parent a cs, rfl, by simp⟩
      · exact ⟨i :: r, u, hu, by simp⟩
    · rintro ⟨r, u, hr, rfl⟩
      cases r with
      | nil =>
        obtain rfl := Option.some.inj hr
        exact .inl (by simp)
      | cons i r => exact .inr ⟨i, r, u, hr, by simp⟩

/-- The nodes at and below siblings are those that paths through them lead to. -/
theorem mem_placesBelow : (ts : List (Tree α)) → {path : Path} → {index : Nat} → {p : Place α} →
    (p ∈ placesBelow path index ts ↔
      ∃ i r u, (ts[i]?).bind (·.at? r) = some u ∧ p = ⟨path ++ (index + i) :: r, u⟩)
  | [], path, index, p => by simp [placesBelow]
  | t :: ts, path, index, p => by
    rw [placesBelow, List.mem_append, mem_placesAt t, mem_placesBelow ts]
    constructor
    · rintro (⟨r, u, hr, rfl⟩ | ⟨i, r, u, hr, rfl⟩)
      · exact ⟨0, r, u, hr, by simp⟩
      · exact ⟨i + 1, r, u, hr, by simp; omega⟩
    · rintro ⟨i, r, u, hr, rfl⟩
      cases i with
      | zero => exact .inl ⟨r, u, hr, by simp⟩
      | succ i => exact .inr ⟨i, r, u, hr, by simp; omega⟩
end

mutual
/-- The nodes of a subtree have strictly increasing paths. -/
theorem ordered_placesAt : (t : Tree α) → (path : Path) →
    (t.placesAt path).Pairwise fun a b ↦ a.path < b.path
  | .leaf a, path => by
    rw [placesAt]
    exact List.pairwise_singleton _ _
  | .parent a cs, path => by
    rw [placesAt]
    refine List.pairwise_cons.2 ⟨fun p hp ↦ ?_, ordered_placesBelow cs path 0⟩
    obtain ⟨i, r, u, _, rfl⟩ := (mem_placesBelow cs).1 hp
    have hlt : path ++ [] < path ++ (0 + i) :: r := List.append_left_lt (List.nil_lt_cons _ r)
    rwa [List.append_nil] at hlt

/-- The nodes at and below siblings have strictly increasing paths. -/
theorem ordered_placesBelow : (ts : List (Tree α)) → (path : Path) → (index : Nat) →
    (placesBelow path index ts).Pairwise fun a b ↦ a.path < b.path
  | [], path, index => by
    rw [placesBelow]
    exact List.Pairwise.nil
  | t :: ts, path, index => by
    rw [placesBelow]
    refine List.pairwise_append.2
      ⟨ordered_placesAt t _, ordered_placesBelow ts path (index + 1), fun p hp q hq ↦ ?_⟩
    obtain ⟨r, u, _, rfl⟩ := (mem_placesAt t).1 hp
    obtain ⟨i, r', u', _, rfl⟩ := (mem_placesBelow ts).1 hq
    rw [List.append_assoc]
    exact List.append_left_lt (List.cons_lt_cons_iff.2 (.inl (by omega)))
end

/-- The nodes of a tree are those that its paths lead to. -/
theorem mem_places {t : Tree α} {p : Place α} : p ∈ t.places ↔ t.at? p.path = some p.tree := by
  rw [places, mem_placesAt]
  constructor
  · rintro ⟨r, u, hr, rfl⟩
    exact hr
  · intro h
    exact ⟨p.path, p.tree, h, rfl⟩

/-- Document order is the order of paths. -/
theorem ordered_places (t : Tree α) : t.places.Pairwise fun a b ↦ a.path < b.path :=
  ordered_placesAt t []

end Tree

/-- No node comes before itself, so a list in document order repeats no node. -/
theorem Place.nodup_of_ordered {α : Type} {ps : List (Place α)}
    (h : ps.Pairwise fun a b ↦ a.path < b.path) : ps.Nodup := by
  apply h.imp
  intro a b hlt heq
  subst b
  exact List.lt_irrefl a.path hlt

/-- Two lists of the same nodes, both in document order, are equal. -/
theorem Place.eq_of_ordered {α : Type} {ps qs : List (Place α)}
    (hp : ps.Pairwise fun a b ↦ a.path < b.path) (hq : qs.Pairwise fun a b ↦ a.path < b.path)
    (h : ∀ p, p ∈ ps ↔ p ∈ qs) : ps = qs := by
  have hperm := (List.perm_ext_iff_of_nodup (nodup_of_ordered hp) (nodup_of_ordered hq)).2 h
  apply hperm.eq_of_pairwise _ hp hq
  intro a b _ _ hab hba
  exact absurd hba (List.lt_asymm hab)

end DocSelect
