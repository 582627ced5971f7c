import DocSelect.Tree.Lift
import DocSelect.Proofs.Tree.Order

/-!
# Lifting in several passes

Lifting a type lifts the parents whose contents pass a test. Lifting by two tests one after the
other is lifting once by either of them: a node that a first pass has moved up still has the
children that the second pass finds. So lifting a type twice is lifting it once, and the order of
two types does not matter.
-/

namespace DocSelect.Tree

variable {α : Type}

/-! ### Lifting by a test -/

/-- A tree, or its children if it is a parent whose contents pass a test. -/
def unwrapBy (test : α → Bool) : Tree α → List (Tree α)
  | .leaf a => [.leaf a]
  | .parent a cs => if test a then cs else [.parent a cs]

mutual
/-- Puts the children of parents whose contents pass a test in their places, below the root. -/
def liftBy (test : α → Bool) : Tree α → Tree α
  | .leaf a => .leaf a
  | .parent a cs => .parent a (liftAllBy test cs)

/-- Lifts siblings, and puts the children of those whose contents pass a test in their places. -/
def liftAllBy (test : α → Bool) : List (Tree α) → List (Tree α)
  | [] => []
  | t :: ts => (t.liftBy test).unwrapBy test ++ liftAllBy test ts
end

section Element

variable [Element α]

/-- Whether contents are of a type. -/
def hasType (type : String) (a : α) : Bool := Element.type a == type

/-- Unwrapping a type tests for it. -/
theorem unwrap_eq_unwrapBy (type : String) (t : Tree α) :
    t.unwrap type = t.unwrapBy (hasType type) := by
  cases t with
  | leaf a => rfl
  | parent a cs => simp only [unwrap, unwrapBy, hasType, beq_iff_eq]

mutual
/-- Lifting a type tests for it. -/
theorem lift_eq_liftBy (type : String) : (t : Tree α) → t.lift type = t.liftBy (hasType type)
  | .leaf a => rfl
  | .parent a cs => by rw [lift, liftBy, liftAll_eq_liftAllBy type cs]

/-- Lifting a type among siblings tests for it. -/
theorem liftAll_eq_liftAllBy (type : String) :
    (ts : List (Tree α)) → liftAll type ts = liftAllBy (hasType type) ts
  | [] => rfl
  | t :: ts => by
    rw [liftAll, liftAllBy, lift_eq_liftBy type t, unwrap_eq_unwrapBy,
      liftAll_eq_liftAllBy type ts]
end

end Element

/-! ### Two passes -/

variable {p q : α → Bool}

/-- Siblings are lifted one by one. -/
theorem liftAllBy_append (ts us : List (Tree α)) :
    liftAllBy p (ts ++ us) = liftAllBy p ts ++ liftAllBy p us :=
  collect_append rfl (fun _ _ ↦ rfl) ts us

/-- What is unwrapped by one test and lifted by another is lifted and unwrapped by both. -/
theorem liftAllBy_unwrapBy (t : Tree α) :
    liftAllBy q (t.unwrapBy p) = (t.liftBy q).unwrapBy fun a ↦ p a || q a := by
  cases t with
  | leaf a => rfl
  | parent a cs =>
    rw [unwrapBy, liftBy, unwrapBy]
    cases hp : p a with
    | true => rfl
    | false => cases hq : q a <;> simp [liftAllBy, liftBy, unwrapBy, hq]

mutual
/-- Lifting by one test after another lifts what passes either. -/
theorem liftBy_liftBy : (t : Tree α) → (t.liftBy p).liftBy q = t.liftBy fun a ↦ p a || q a
  | .leaf a => rfl
  | .parent a cs => by rw [liftBy, liftBy, liftBy, liftAllBy_liftAllBy cs]

/-- Lifting siblings by one test after another lifts what passes either. -/
theorem liftAllBy_liftAllBy :
    (ts : List (Tree α)) → liftAllBy q (liftAllBy p ts) = liftAllBy (fun a ↦ p a || q a) ts
  | [] => rfl
  | t :: ts => by
    rw [liftAllBy, liftAllBy_append, liftAllBy_unwrapBy, liftBy_liftBy t, liftAllBy_liftAllBy ts,
      liftAllBy]
end

/-- Lifting a type twice is lifting it once, and two types are lifted in either order. -/
theorem lift_passes [Element α] (first second : String) (t : Tree α) :
    (t.lift first).lift first = t.lift first ∧
      (t.lift first).lift second = (t.lift second).lift first := by
  simp only [lift_eq_liftBy, liftBy_liftBy]
  exact ⟨by simp only [Bool.or_self], by simp only [Bool.or_comm]⟩

end DocSelect.Tree
